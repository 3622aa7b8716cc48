import SimpleGo.Ratchet.Kem

/-!
# `ratchet_decrypt_body`

SAME continues the receiving chain. ADVANCE derives a receiving and a sending chain from the
peer's new DH key into locals; the classical state is replaced only after the body has
opened. The PQ state is not kept in locals: the KEM step and the use of the pending secret
change it, and save it, before the body is tried. At any of these points the crypto task may
carry out requests that earlier calls, or the KEM step itself, have given up waiting for.
-/

namespace SimpleGo

open Lib

variable {K : Type}

/-- `ratchet_decrypt_mode_t`. -/
inductive DecryptMode where
  | advance
  | same
  deriving DecidableEq

/-- The arguments of a call; `junk` is what its output buffer holds past the plaintext. -/
structure BodyCall where
  mode : DecryptMode
  peerNewPub : Bytes 56
  msgPn : UInt32
  msgNs : UInt32
  emHeaderRaw : List UInt8
  emAuthTag : Bytes 16
  emBody : List UInt8
  junk : Mem

/-- The points of a call at which late requests are told apart: before the KEM step, between
it and the send-side KDF, and from there to the end. `KemDraws.late` has those of the step. -/
inductive LatePoint where
  | before
  | after
  | finish

/-- What the environment decides during a call. -/
structure DecryptDraws where
  kem : KemDraws
  /-- `x448_generate_keypair`. -/
  dhSelf : Option X448KeyPair
  /-- Whether the AAD buffer is allocated. -/
  aadAlloc : Bool
  /-- The requests of the crypto task that are carried out late, during this call. -/
  late : LatePoint → List LateRequest := fun _ => []

/-- The locals an ADVANCE derives. -/
structure AdvanceKeys (K : Type) where
  recvChainKey : K
  newRootKey2 : K
  sendChainKey : K
  newNhkRecv : K
  newNhkSend : K
  newDhSelf : X448KeyPair

/-- What the ADVANCE branch leaves before the body is tried: its locals or an error, and its
effects on the PQ state, the pending header and NVS. -/
structure AdvanceOut (K : Type) where
  result : Except Int (AdvanceKeys K)
  pq : PqKemState
  recvPq : Option ParsedMsgHeader
  writes : List (NvsWrite K)

/-- Send-side half of the ADVANCE branch, after the KEM step and the receive-side KDF. -/
def advanceSend (P : Primitives K) (enabled : Bool) (dhSelf : Option X448KeyPair)
    (peerNewPub : Bytes 56) (recv : Primitives.RootKeys K) (pq : PqKemState) :
    Except Int (AdvanceKeys K) × PqKemState :=
  match dhSelf with
  | none => (.error (-2), pq)
  | some newDhSelf =>
    match P.x448Dh peerNewPub newDhSelf.privateKey with
    | none => (.error (-3), pq)
    | some dhSend =>
      let send := P.kdfRoot recv.newRootKey dhSend (sendKem enabled pq)
      (.ok
        { recvChainKey := recv.chainKey
          newRootKey2 := send.newRootKey
          sendChainKey := send.chainKey
          newNhkRecv := recv.nextHeaderKey
          newNhkSend := send.nextHeaderKey
          newDhSelf },
        consumePending enabled pq)

/-- The ADVANCE branch. -/
def advanceRatchet (P : Primitives K) (idx : ℕ) (enabled : Bool) (draws : DecryptDraws)
    (recvPq : Option ParsedMsgHeader) (peerNewPub : Bytes 56) (st : RatchetState K) :
    AdvanceOut K :=
  match P.x448Dh peerNewPub st.dhSelf.privateKey with
  | none => { result := .error (-1), pq := st.pq, recvPq, writes := [] }
  | some dhRecv =>
    let kem := kemStep P enabled draws.kem recvPq (st.pq.carryOut (draws.late .before))
    let recv := P.kdfRoot st.rootKey dhRecv kem.kemSs
    let send := advanceSend P enabled draws.dhSelf peerNewPub recv
      (kem.pq.carryOut (draws.late .after))
    { result := send.1
      pq := send.2
      recvPq := consumeRecvPq enabled recvPq
      writes := if kem.saved then pqNvsSave idx kem.pq else [] }

/-- `unPad` on the output buffer. The bound is computed in a 32-bit `size_t`, so a body
shorter than its length field passes it. -/
def unPad (junk : Mem) (padded : List UInt8) : Option (List UInt8) :=
  let plaintext := memOf padded junk
  let actualLen := read16 plaintext 0
  if (2 ^ 32 - 2 + padded.length) % 2 ^ 32 < actualLen then none
  else some (window plaintext 2 actualLen)

/-- Skipping to message `msgNs`: the chain key its body is encrypted from. -/
def bodyChainKey (P : Primitives K) (skipFrom msgNs : UInt32) (recvChainKey : K) : K :=
  P.skipChain (msgNs.toNat - skipFrom.toNat) recvChainKey

/-- Body decryption from the chain key of its message. -/
def openBody (P : Primitives K) (assocData : Bytes 112) (call : BodyCall) (aadAlloc : Bool)
    (chainKey : K) : Except Int (List UInt8) :=
  if !aadAlloc then .error (-4)
  else
    let keys := P.kdfChain chainKey
    match P.aesGcmDecrypt keys.messageKey keys.msgIv (assocData.toList ++ call.emHeaderRaw)
        call.emBody call.emAuthTag with
    | none => .error (-5)
    | some padded =>
      match unPad call.junk padded with
      | none => .error (-6)
      | some plaintext => .ok plaintext

/-- What a call leaves: the plaintext or its error code, both parts of the state, the pending
header, the attempted writes. -/
structure DecryptOut (K : Type) where
  result : Except Int (List UInt8)
  state : RatchetState K
  recvPq : Option ParsedMsgHeader
  writes : List (NvsWrite K)

/-- Late requests are carried out into the working copy. -/
def RatchetState.carryOut (st : RatchetState K) (late : List LateRequest) : RatchetState K :=
  { st with pq := st.pq.carryOut late }

@[simp] theorem RatchetState.carryOut_nil (st : RatchetState K) : st.carryOut [] = st := rfl

@[simp] theorem RatchetState.carryOut_toRatchetClassical (st : RatchetState K)
    (late : List LateRequest) :
    (st.carryOut late).toRatchetClassical = st.toRatchetClassical := rfl

@[simp] theorem RatchetState.carryOut_pq (st : RatchetState K) (late : List LateRequest) :
    (st.carryOut late).pq = st.pq.carryOut late := rfl

/-- The state updates of a successful ADVANCE. -/
def RatchetState.applyAdvance (P : Primitives K) (st : RatchetState K) (keys : AdvanceKeys K)
    (peerNewPub : Bytes 56) (msgNs : UInt32) (pq : PqKemState) : RatchetState K :=
  { st with
    rootKey := keys.newRootKey2
    chainKeyRecv := P.nextChainKey (bodyChainKey P 0 msgNs keys.recvChainKey)
    chainKeySend := keys.sendChainKey
    headerKeySend := st.nextHeaderKeySend
    headerKeyRecv := st.nextHeaderKeyRecv
    nextHeaderKeySend := keys.newNhkSend
    nextHeaderKeyRecv := keys.newNhkRecv
    dhSelf := keys.newDhSelf
    dhPeer := peerNewPub
    prevChainLen := st.msgNumSend
    msgNumRecv := msgNs + 1
    msgNumSend := 0
    pq }

/-- The state updates of a successful SAME. -/
def RatchetState.applySame (P : Primitives K) (st : RatchetState K) (msgNs : UInt32) :
    RatchetState K :=
  { st with
    chainKeyRecv := P.nextChainKey (bodyChainKey P st.msgNumRecv msgNs st.chainKeyRecv)
    msgNumRecv := msgNs + 1 }

@[simp] theorem RatchetState.applyAdvance_initialized (P : Primitives K) (st : RatchetState K)
    (keys : AdvanceKeys K) (peerNewPub : Bytes 56) (msgNs : UInt32) (pq : PqKemState) :
    (st.applyAdvance P keys peerNewPub msgNs pq).initialized = st.initialized := rfl

@[simp] theorem RatchetState.applyAdvance_pq (P : Primitives K) (st : RatchetState K)
    (keys : AdvanceKeys K) (peerNewPub : Bytes 56) (msgNs : UInt32) (pq : PqKemState) :
    (st.applyAdvance P keys peerNewPub msgNs pq).pq = pq := rfl

@[simp] theorem RatchetState.applySame_initialized (P : Primitives K) (st : RatchetState K)
    (msgNs : UInt32) : (st.applySame P msgNs).initialized = st.initialized := rfl

@[simp] theorem RatchetState.applySame_pq (P : Primitives K) (st : RatchetState K)
    (msgNs : UInt32) : (st.applySame P msgNs).pq = st.pq := rfl

/-- `ratchet_decrypt_body` on the working copy of slot `idx`. -/
def ratchetDecryptBody (P : Primitives K) (idx : ℕ) (enabled : Bool) (draws : DecryptDraws)
    (recvPq : Option ParsedMsgHeader) (st : RatchetState K) (call : BodyCall) : DecryptOut K :=
  match call.mode with
  | .advance =>
    let adv := advanceRatchet P idx enabled draws recvPq call.peerNewPub st
    match adv.result with
    | .error e =>
      { result := .error e
        state := { st with pq := adv.pq.carryOut (draws.late .finish) }
        recvPq := adv.recvPq, writes := adv.writes }
    | .ok keys =>
      match openBody P st.assocData call draws.aadAlloc
          (bodyChainKey P 0 call.msgNs keys.recvChainKey) with
      | .error e =>
        { result := .error e
          state := { st with pq := adv.pq.carryOut (draws.late .finish) }
          recvPq := adv.recvPq, writes := adv.writes }
      | .ok plaintext =>
        let st' := st.applyAdvance P keys call.peerNewPub call.msgNs
          (adv.pq.carryOut (draws.late .finish))
        { result := .ok plaintext, state := st', recvPq := adv.recvPq
          writes := adv.writes ++ ratchetSaveState idx st' }
  | .same =>
    if call.msgNs < st.msgNumRecv then
      { result := .error (-10), state := st.carryOut (draws.late .finish), recvPq, writes := [] }
    else
      match openBody P st.assocData call draws.aadAlloc
          (bodyChainKey P st.msgNumRecv call.msgNs st.chainKeyRecv) with
      | .error e =>
        { result := .error e, state := st.carryOut (draws.late .finish), recvPq, writes := [] }
      | .ok plaintext =>
        let st' := (st.applySame P call.msgNs).carryOut (draws.late .finish)
        { result := .ok plaintext, state := st', recvPq, writes := ratchetSaveState idx st' }

/-- The PQ state after the send-side half: the pending secret is used up if a key pair was
generated and its DH succeeded. -/
theorem advanceSend_pq (P : Primitives K) (enabled : Bool) (dhSelf : Option X448KeyPair)
    (peerNewPub : Bytes 56) (recv : Primitives.RootKeys K) (pq : PqKemState) :
    (advanceSend P enabled dhSelf peerNewPub recv pq).2 =
      if (dhSelf.bind fun pair => P.x448Dh peerNewPub pair.privateKey).isSome
      then consumePending enabled pq else pq := by
  cases dhSelf with
  | none => rfl
  | some pair =>
    cases hdh : P.x448Dh peerNewPub pair.privateKey <;> simp [advanceSend, hdh]

section Spec

variable (P : Primitives K) (idx : ℕ) (enabled : Bool) (draws : DecryptDraws)
  (recvPq : Option ParsedMsgHeader) (st : RatchetState K) (call : BodyCall)

/-- What one call does: it fails in SAME, succeeds in SAME, fails in ADVANCE with only the PQ
part changed, or succeeds in ADVANCE. In each case late requests may be carried out last. -/
theorem ratchetDecryptBody_cases :
    (call.mode = .same ∧ ∃ e, ratchetDecryptBody P idx enabled draws recvPq st call =
        { result := .error e, state := st.carryOut (draws.late .finish), recvPq
          writes := [] }) ∨
    (call.mode = .same ∧ st.msgNumRecv ≤ call.msgNs ∧ ∃ plaintext,
      openBody P st.assocData call draws.aadAlloc
        (bodyChainKey P st.msgNumRecv call.msgNs st.chainKeyRecv) = .ok plaintext ∧
      ratchetDecryptBody P idx enabled draws recvPq st call =
        { result := .ok plaintext
          state := (st.applySame P call.msgNs).carryOut (draws.late .finish), recvPq
          writes := ratchetSaveState idx
            ((st.applySame P call.msgNs).carryOut (draws.late .finish)) }) ∨
    (call.mode = .advance ∧ ∃ e, ratchetDecryptBody P idx enabled draws recvPq st call =
      { result := .error e
        state := { st with
          pq := (advanceRatchet P idx enabled draws recvPq call.peerNewPub st).pq.carryOut
            (draws.late .finish) }
        recvPq := (advanceRatchet P idx enabled draws recvPq call.peerNewPub st).recvPq
        writes := (advanceRatchet P idx enabled draws recvPq call.peerNewPub st).writes }) ∨
    (call.mode = .advance ∧ ∃ keys plaintext,
      (advanceRatchet P idx enabled draws recvPq call.peerNewPub st).result = .ok keys ∧
      openBody P st.assocData call draws.aadAlloc
        (bodyChainKey P 0 call.msgNs keys.recvChainKey) = .ok plaintext ∧
      ratchetDecryptBody P idx enabled draws recvPq st call =
        { result := .ok plaintext
          state := st.applyAdvance P keys call.peerNewPub call.msgNs
            ((advanceRatchet P idx enabled draws recvPq call.peerNewPub st).pq.carryOut
              (draws.late .finish))
          recvPq := (advanceRatchet P idx enabled draws recvPq call.peerNewPub st).recvPq
          writes := (advanceRatchet P idx enabled draws recvPq call.peerNewPub st).writes ++
            ratchetSaveState idx (st.applyAdvance P keys call.peerNewPub call.msgNs
              ((advanceRatchet P idx enabled draws recvPq call.peerNewPub st).pq.carryOut
                (draws.late .finish))) }) := by
  cases hmode : call.mode with
  | same =>
    simp only [ratchetDecryptBody, hmode]
    by_cases hold : call.msgNs < st.msgNumRecv
    · exact .inl ⟨trivial, -10, by rw [if_pos hold]⟩
    · rw [if_neg hold]
      cases hbody : openBody P st.assocData call draws.aadAlloc
          (bodyChainKey P st.msgNumRecv call.msgNs st.chainKeyRecv) with
      | error e => exact .inl ⟨trivial, e, rfl⟩
      | ok plaintext =>
        exact .inr (.inl ⟨trivial, UInt32.not_lt.mp hold, plaintext, rfl, rfl⟩)
  | advance =>
    simp only [ratchetDecryptBody, hmode]
    cases hkeys : (advanceRatchet P idx enabled draws recvPq call.peerNewPub st).result with
    | error e => exact .inr (.inr (.inl ⟨trivial, e, rfl⟩))
    | ok keys =>
      cases hbody : openBody P st.assocData call draws.aadAlloc
          (bodyChainKey P 0 call.msgNs keys.recvChainKey) with
      | error e => exact .inr (.inr (.inl ⟨trivial, e, by simp only [hbody]⟩))
      | ok plaintext =>
        exact .inr (.inr (.inr ⟨trivial, keys, plaintext, rfl, hbody, by simp only [hbody]⟩))

/-- A SAME call succeeds where its number is not behind and its body opens. -/
theorem ratchetDecryptBody_same_ok {plaintext : List UInt8} (hmode : call.mode = .same)
    (hnum : ¬ call.msgNs < st.msgNumRecv)
    (hopen : openBody P st.assocData call draws.aadAlloc
      (bodyChainKey P st.msgNumRecv call.msgNs st.chainKeyRecv) = .ok plaintext) :
    let st' := (st.applySame P call.msgNs).carryOut (draws.late .finish)
    ratchetDecryptBody P idx enabled draws recvPq st call =
      { result := .ok plaintext, state := st', recvPq, writes := ratchetSaveState idx st' } := by
  simp only [ratchetDecryptBody, hmode, if_neg hnum, hopen]

/-- A SAME call with a number behind the receiver's fails. -/
theorem ratchetDecryptBody_same_behind (hmode : call.mode = .same)
    (hnum : call.msgNs < st.msgNumRecv) :
    ratchetDecryptBody P idx enabled draws recvPq st call =
      { result := .error (-10), state := st.carryOut (draws.late .finish), recvPq
        writes := [] } := by
  simp only [ratchetDecryptBody, hmode]
  rw [if_pos hnum]

/-- An ADVANCE call succeeds where its keys are derived and its body opens. -/
theorem ratchetDecryptBody_advance_ok {keys : AdvanceKeys K} {plaintext : List UInt8}
    (hmode : call.mode = .advance)
    (hkeys : (advanceRatchet P idx enabled draws recvPq call.peerNewPub st).result = .ok keys)
    (hopen : openBody P st.assocData call draws.aadAlloc
      (bodyChainKey P 0 call.msgNs keys.recvChainKey) = .ok plaintext) :
    let adv := advanceRatchet P idx enabled draws recvPq call.peerNewPub st
    let st' := st.applyAdvance P keys call.peerNewPub call.msgNs
      (adv.pq.carryOut (draws.late .finish))
    ratchetDecryptBody P idx enabled draws recvPq st call =
      { result := .ok plaintext, state := st', recvPq := adv.recvPq
        writes := adv.writes ++ ratchetSaveState idx st' } := by
  simp only [ratchetDecryptBody, hmode, hkeys, hopen]

/-- The ADVANCE branch on a pending header, where every operation succeeds. -/
theorem advanceRatchet_eq_ok {peerNewPub : Bytes 56} {dhRecv dhSend : Bytes 56}
    {newDhSelf : X448KeyPair} (hrecv : P.x448Dh peerNewPub st.dhSelf.privateKey = some dhRecv)
    (hself : draws.dhSelf = some newDhSelf)
    (hsend : P.x448Dh peerNewPub newDhSelf.privateKey = some dhSend) :
    let kem := kemStep P enabled draws.kem recvPq (st.pq.carryOut (draws.late .before))
    let pq := kem.pq.carryOut (draws.late .after)
    let recv := P.kdfRoot st.rootKey dhRecv kem.kemSs
    let send := P.kdfRoot recv.newRootKey dhSend (sendKem enabled pq)
    let adv := advanceRatchet P idx enabled draws recvPq peerNewPub st
    adv.result = .ok
        { recvChainKey := recv.chainKey, newRootKey2 := send.newRootKey
          sendChainKey := send.chainKey, newNhkRecv := recv.nextHeaderKey
          newNhkSend := send.nextHeaderKey, newDhSelf } ∧
      adv.pq = consumePending enabled pq := by
  simp only [advanceRatchet, hrecv, advanceSend, hself, hsend]
  exact ⟨trivial, trivial⟩

/-- The locals of a successful ADVANCE branch, and its effect on the PQ state. -/
theorem advanceRatchet_ok {peerNewPub : Bytes 56} {keys : AdvanceKeys K}
    (h : (advanceRatchet P idx enabled draws recvPq peerNewPub st).result = .ok keys) :
    ∃ dhRecv dhSend newDhSelf,
      P.x448Dh peerNewPub st.dhSelf.privateKey = some dhRecv ∧
      draws.dhSelf = some newDhSelf ∧
      P.x448Dh peerNewPub newDhSelf.privateKey = some dhSend ∧
      let kem := kemStep P enabled draws.kem recvPq (st.pq.carryOut (draws.late .before))
      let pq := kem.pq.carryOut (draws.late .after)
      let recv := P.kdfRoot st.rootKey dhRecv kem.kemSs
      let send := P.kdfRoot recv.newRootKey dhSend (sendKem enabled pq)
      keys =
        { recvChainKey := recv.chainKey, newRootKey2 := send.newRootKey
          sendChainKey := send.chainKey, newNhkRecv := recv.nextHeaderKey
          newNhkSend := send.nextHeaderKey, newDhSelf } ∧
      (advanceRatchet P idx enabled draws recvPq peerNewPub st).pq =
        consumePending enabled pq := by
  rw [advanceRatchet] at h ⊢
  cases hrecv : P.x448Dh peerNewPub st.dhSelf.privateKey with
  | none =>
    rw [hrecv] at h
    cases h
  | some dhRecv =>
    simp only [hrecv, advanceSend] at h ⊢
    cases hself : draws.dhSelf with
    | none =>
      rw [hself] at h
      cases h
    | some newDhSelf =>
      simp only [hself] at h ⊢
      cases hsend : P.x448Dh peerNewPub newDhSelf.privateKey with
      | none =>
        rw [hsend] at h
        cases h
      | some dhSend =>
        simp only [hsend, Except.ok.injEq] at h ⊢
        exact ⟨dhRecv, dhSend, newDhSelf, rfl, rfl, hsend, h.symm, trivial⟩

/-- Before the body is tried only PQ keys are written. -/
theorem mem_advanceRatchet_writes {peerNewPub : Bytes 56} {w : NvsWrite K}
    (h : w ∈ (advanceRatchet P idx enabled draws recvPq peerNewPub st).writes) :
    ∃ field, w.1 = pqKey idx field := by
  rw [advanceRatchet] at h
  cases hrecv : P.x448Dh peerNewPub st.dhSelf.privateKey with
  | none => simp [hrecv] at h
  | some dhRecv =>
    simp only [hrecv] at h
    split_ifs at h
    · obtain ⟨field, -, hfield⟩ := mem_pqNvsSave h
      exact ⟨field, hfield⟩
    · cases h

end Spec

end SimpleGo
