import SimpleGo.Ratchet.Header
import SimpleGo.Ratchet.Persist

/-!
# `ratchet_encrypt`

The chain key is advanced before anything that can fail; the message number and the saved
blob follow only when the ciphertext is complete. All failures after the chain step leave
through one `cleanup` label, so the environment decides one Boolean for them.

The caller passes a plaintext of at most 65535 bytes that fits the padded length; the code
does not check it.
-/

namespace SimpleGo

open Lib

variable {K : Type}

/-- The padded body length, which gives the PQ header its extra room. -/
def effectivePaddedLen (isPq : Bool) (paddedMsgLen : ℕ) : Option ℕ :=
  let pqOverhead := msgHeaderPqPaddedLen - msgHeaderPaddedLen
  if isPq then
    if pqOverhead + 256 < paddedMsgLen then some (paddedMsgLen - pqOverhead) else none
  else some paddedMsgLen

/-- The padded body: length, plaintext, `#`. -/
def paddedPayload (plaintext : List UInt8) (paddedLen : ℕ) : List UInt8 :=
  be16 plaintext.length ++ (plaintext ++ hashPadding (paddedLen - 2 - plaintext.length))

/-- `emHeader`: version, header IV and tag, length and ciphertext of the header. -/
def emHeader (P : Primitives K) (st : RatchetState K) (header : List UInt8) : List UInt8 :=
  let iv := (P.kdfChain st.chainKeySend).headerIv
  let enc := P.aesGcmEncrypt st.headerKeySend iv st.assocData.toList header
  be16 3 ++ (iv.toList ++ (enc.2.toList ++ (be16 header.length ++ enc.1)))

/-- The `EncRatchetMessage`: length-prefixed `emHeader`, body tag, body ciphertext. -/
def encRatchetMessage (P : Primitives K) (st : RatchetState K) (header plaintext : List UInt8)
    (paddedLen : ℕ) : List UInt8 :=
  let keys := P.kdfChain st.chainKeySend
  let em := emHeader P st header
  let enc := P.aesGcmEncrypt keys.messageKey keys.msgIv (st.assocData.toList ++ em)
    (paddedPayload plaintext paddedLen)
  be16 em.length ++ (em ++ (enc.2.toList ++ enc.1))

/-- The header of the next message in KEM states 0, 1 and 2. -/
def emittedHeader (enabled : Bool) (st : RatchetState K) : List UInt8 :=
  paddedHeader (hdrPadded (pqSendActive enabled st.pq))
    (headerContent st.dhSelf.publicKey (emittedKem (pqSendActive enabled st.pq) st.pq).encode
      st.prevChainLen st.msgNumSend)

/-- The builders give that header. -/
theorem messageHeader_eq_emittedHeader (enabled : Bool) {st : RatchetState K}
    (hst : st.pq.pqKemState ≤ 2) :
    messageHeader enabled st.dhSelf.publicKey st.pq st.prevChainLen st.msgNumSend =
      some (emittedHeader enabled st) := messageHeader_eq _ _ _ _ _ hst

/-- An emitted header has the padded length. -/
theorem emittedHeader_length (enabled : Bool) (st : RatchetState K) :
    (emittedHeader enabled st).length = hdrPadded (pqSendActive enabled st.pq) := by
  apply paddedHeader_length
  have hfits := emittedKem_fits (pqSendActive enabled st.pq) st.pq
  rw [headerContent_length]
  omega

/-- It parses back, whatever lies after it. -/
theorem pqHeaderDeserialize_emittedHeader (enabled : Bool) (st : RatchetState K) (junk : Mem) :
    pqHeaderDeserialize (memOf (emittedHeader enabled st) junk) (emittedHeader enabled st).length =
      .ok { version := 3, dhPublic := st.dhSelf.publicKey
            kem := emittedKem (pqSendActive enabled st.pq) st.pq
            pn := st.prevChainLen, ns := st.msgNumSend } := by
  rw [emittedHeader_length]
  exact pqHeaderDeserialize_of_holds (holds_memOf _ _) (hdrPadded_le _) (emittedKem_fits _ _)

/-- What a call leaves: the ciphertext where it returns 0, the state, the attempted writes. -/
structure EncryptOut (K : Type) where
  output : Option (List UInt8)
  state : RatchetState K
  writes : List (NvsWrite K)

/-- The state after the chain step. -/
def RatchetState.chainStep (P : Primitives K) (st : RatchetState K) : RatchetState K :=
  { st with chainKeySend := P.nextChainKey st.chainKeySend }

/-- The state after a sent message. -/
def RatchetState.sent (P : Primitives K) (st : RatchetState K) : RatchetState K :=
  { st.chainStep P with msgNumSend := st.msgNumSend + 1 }

@[simp] theorem RatchetState.sent_initialized (P : Primitives K) (st : RatchetState K) :
    (st.sent P).initialized = st.initialized := rfl

@[simp] theorem RatchetState.sent_pq (P : Primitives K) (st : RatchetState K) :
    (st.sent P).pq = st.pq := rfl

/-- `ratchet_encrypt` on the working copy of slot `idx`; `cleanup` is an allocation or AES
failure after the chain step. -/
def ratchetEncrypt (P : Primitives K) (idx : ℕ) (enabled cleanup : Bool) (st : RatchetState K)
    (plaintext : List UInt8) (paddedMsgLen : ℕ) : EncryptOut K :=
  if !st.initialized then { output := none, state := st, writes := [] }
  else
    match effectivePaddedLen (pqSendActive enabled st.pq) paddedMsgLen with
    | none => { output := none, state := st, writes := [] }
    | some paddedLen =>
      match messageHeader enabled st.dhSelf.publicKey st.pq st.prevChainLen st.msgNumSend with
      | none => { output := none, state := st.chainStep P, writes := [] }
      | some header =>
        if cleanup then { output := none, state := st.chainStep P, writes := [] }
        else
          { output := some (encRatchetMessage P st header plaintext paddedLen)
            state := st.sent P
            writes := ratchetSaveState idx (st.sent P) }

section Spec

variable (P : Primitives K) (idx : ℕ) (enabled cleanup : Bool) (st : RatchetState K)
  (plaintext : List UInt8) (paddedMsgLen : ℕ)

/-- The checks that come before the chain step. -/
def encryptAdmitted : Bool :=
  st.initialized && (effectivePaddedLen (pqSendActive enabled st.pq) paddedMsgLen).isSome

/-- The header builders never fail: the buffer has the length they ask for. -/
theorem messageHeader_isSome (dhPublic : Bytes 56) (pq : PqKemState) (pn ns : UInt32) :
    ∃ header, messageHeader enabled dhPublic pq pn ns = some header := by
  rw [messageHeader]
  by_cases hpq : pqSendActive enabled pq = true
  · rw [if_pos hpq, pqHeaderSerialize]
    simp [hpq]
  · rw [if_neg hpq]
    exact ⟨_, rfl⟩

/-- What one call does: it refuses, fails after the chain step, or sends. -/
theorem ratchetEncrypt_cases :
    (encryptAdmitted enabled st paddedMsgLen = false ∧
      ratchetEncrypt P idx enabled cleanup st plaintext paddedMsgLen =
        { output := none, state := st, writes := [] }) ∨
    (encryptAdmitted enabled st paddedMsgLen = true ∧ cleanup = true ∧
      ratchetEncrypt P idx enabled cleanup st plaintext paddedMsgLen =
        { output := none, state := st.chainStep P, writes := [] }) ∨
    (encryptAdmitted enabled st paddedMsgLen = true ∧ cleanup = false ∧
      ∃ paddedLen header,
        effectivePaddedLen (pqSendActive enabled st.pq) paddedMsgLen = some paddedLen ∧
        messageHeader enabled st.dhSelf.publicKey st.pq st.prevChainLen st.msgNumSend =
          some header ∧
        ratchetEncrypt P idx enabled cleanup st plaintext paddedMsgLen =
          { output := some (encRatchetMessage P st header plaintext paddedLen)
            state := st.sent P
            writes := ratchetSaveState idx (st.sent P) }) := by
  rw [ratchetEncrypt, encryptAdmitted]
  by_cases hinit : st.initialized = true
  · obtain ⟨header, hheader⟩ := messageHeader_isSome enabled st.dhSelf.publicKey st.pq
      st.prevChainLen st.msgNumSend
    cases hlen : effectivePaddedLen (pqSendActive enabled st.pq) paddedMsgLen with
    | none => simp [hinit]
    | some paddedLen => cases cleanup <;> simp [hinit, hheader]
  · simp [hinit]

/-- A ciphertext is returned exactly when the call is admitted and nothing fails. -/
theorem ratchetEncrypt_output_isSome :
    (ratchetEncrypt P idx enabled cleanup st plaintext paddedMsgLen).output.isSome ↔
      encryptAdmitted enabled st paddedMsgLen = true ∧ cleanup = false := by
  rcases ratchetEncrypt_cases P idx enabled cleanup st plaintext paddedMsgLen with
    ⟨hadm, h⟩ | ⟨hadm, hclean, h⟩ | ⟨hadm, hclean, _, _, _, _, h⟩
  · rw [h]
    simp [hadm]
  · rw [h]
    simp [hclean]
  · rw [h]
    simp [hadm, hclean]

end Spec

end SimpleGo
