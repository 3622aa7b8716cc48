import SimpleGo.Ratchet.Encrypt
import SimpleGo.Ratchet.Decrypt

/-!
# The receive pipeline

`ratchet_decrypt_message` takes an `EncRatchetMessage` out of a client message: it tries the
header under the two receiving header keys, parses the opened header with both parsers,
stores the KEM field for the ratchet and opens the body. Only the end of the body is checked
against the length of the message; every length before it comes from the message itself, so
the message is memory that goes on after its end.
-/

namespace SimpleGo

open Lib

variable {K : Type}

/-- The offset of the header ciphertext in `emHeader`. -/
def ehBodyOffset (clientMsg : Mem) (emHeader : ℕ) : ℕ :=
  if 3 ≤ read16 clientMsg emHeader then 36 else 35

/-- The length of the header ciphertext: a word from version 3 on, a byte before. -/
def ehBodyLen (clientMsg : Mem) (emHeader : ℕ) : ℕ :=
  if 3 ≤ read16 clientMsg emHeader then read16 clientMsg (emHeader + 34)
  else (clientMsg (emHeader + 34)).toNat

/-- One trial decryption of the header at offset `emHeader`. -/
def openHeader (P : Primitives K) (assocData : Bytes 112) (clientMsg : Mem) (emHeader : ℕ)
    (headerKey : K) : Option (List UInt8) :=
  P.aesGcmDecrypt headerKey (windowBytes clientMsg (emHeader + 2) 16) assocData.toList
    (window clientMsg (emHeader + ehBodyOffset clientMsg emHeader)
      (ehBodyLen clientMsg emHeader))
    (windowBytes clientMsg (emHeader + 18) 16)

/-- `ratchet_header_try_decrypt`: SAME where `header_key_recv` opens the header, ADVANCE where
only `next_header_key_recv` does. -/
def ratchetHeaderTryDecrypt (P : Primitives K) (st : RatchetState K) (clientMsg : Mem)
    (emHeader : ℕ) : Option (DecryptMode × List UInt8) :=
  if !st.initialized then none
  else
    match openHeader P st.assocData clientMsg emHeader st.headerKeyRecv with
    | some headerPlain => some (.same, headerPlain)
    | none =>
      match openHeader P st.assocData clientMsg emHeader st.nextHeaderKeyRecv with
      | some headerPlain => some (.advance, headerPlain)
      | none => none

/-- A client message: its memory, its length and where the `EncRatchetMessage` starts. -/
structure ClientMessage where
  clientMsg : Mem
  originalLen : ℕ
  ermOffset : ℕ

namespace ClientMessage

variable (m : ClientMessage)

/-- `em_header`. -/
def emHeader : ℕ := m.ermOffset + 2

/-- `em_header_len`. -/
def emHeaderLen : ℕ := read16 m.clientMsg m.ermOffset

/-- `auth_offset_in_msg`. -/
def authOffset : ℕ := m.emHeader + m.emHeaderLen

/-- `body_offset_in_msg`. -/
def bodyOffset : ℕ := m.emHeader + m.emHeaderLen + 16

/-- The arguments of `ratchet_decrypt_body`. -/
def bodyCall (mode : DecryptMode) (peerDh : Bytes 56) (pn ns : UInt32) (junk : Mem) : BodyCall where
  mode := mode
  peerNewPub := peerDh
  msgPn := pn
  msgNs := ns
  emHeaderRaw := window m.clientMsg m.emHeader m.emHeaderLen
  emAuthTag := windowBytes m.clientMsg m.authOffset 16
  emBody := window m.clientMsg m.bodyOffset (m.originalLen - m.bodyOffset)
  junk := junk

end ClientMessage

/-- What the environment decides while a message is received. -/
structure ReceiveDraws where
  /-- Whether `header_plain` is allocated, and what it holds past the header. -/
  headerAlloc : Bool
  headerJunk : Mem
  /-- Whether `body_plain` is allocated, and what it holds past the body. -/
  bodyAlloc : Bool
  bodyJunk : Mem
  body : DecryptDraws

/-- What a call leaves: the plaintext where it returns true, the state, the pending header, the
attempted writes. -/
structure ReceiveOut (K : Type) where
  body : Option (List UInt8)
  state : RatchetState K
  recvPq : Option ParsedMsgHeader
  writes : List (NvsWrite K)

/-- The result of `ratchet_decrypt_body`, as the pipeline returns it. -/
def DecryptOut.received (out : DecryptOut K) : ReceiveOut K where
  body := out.result.toOption
  state := out.state
  recvPq := out.recvPq
  writes := out.writes

/-- `ratchet_decrypt_message` on the working copy of slot `idx`. -/
def ratchetDecryptMessage (P : Primitives K) (idx : ℕ) (enabled : Bool) (draws : ReceiveDraws)
    (recvPq : Option ParsedMsgHeader) (st : RatchetState K) (m : ClientMessage) : ReceiveOut K :=
  if !draws.headerAlloc then { body := none, state := st, recvPq, writes := [] }
  else
    match ratchetHeaderTryDecrypt P st m.clientMsg m.emHeader with
    | none => { body := none, state := st, recvPq, writes := [] }
    | some (mode, opened) =>
      let headerPlain := memOf opened draws.headerJunk
      match ratchetParseMsgHeader headerPlain with
      | none => { body := none, state := st, recvPq, writes := [] }
      | some (peerDh, pn, ns) =>
        let recvPq := (pqHeaderDeserialize headerPlain (ehBodyLen m.clientMsg m.emHeader)).toOption
        if m.originalLen ≤ m.bodyOffset || m.originalLen < m.authOffset + 16 || !draws.bodyAlloc then
          { body := none, state := st, recvPq, writes := [] }
        else
          (ratchetDecryptBody P idx enabled draws.body recvPq st
            (m.bodyCall mode peerDh pn ns draws.bodyJunk)).received

section Spec

variable (P : Primitives K) (idx : ℕ) (enabled : Bool) (draws : ReceiveDraws)
  (recvPq : Option ParsedMsgHeader) (st : RatchetState K) (m : ClientMessage)

/-- The header opened by a successful trial, and the key that opened it. -/
theorem ratchetHeaderTryDecrypt_cases {clientMsg : Mem} {emHeader : ℕ} {mode : DecryptMode}
    {opened : List UInt8}
    (h : ratchetHeaderTryDecrypt P st clientMsg emHeader = some (mode, opened)) :
    st.initialized = true ∧
      ((mode = .same ∧
          openHeader P st.assocData clientMsg emHeader st.headerKeyRecv = some opened) ∨
        (mode = .advance ∧
          openHeader P st.assocData clientMsg emHeader st.headerKeyRecv = none ∧
          openHeader P st.assocData clientMsg emHeader st.nextHeaderKeyRecv = some opened)) := by
  rw [ratchetHeaderTryDecrypt] at h
  cases hinit : st.initialized with
  | false => simp [hinit] at h
  | true =>
    refine ⟨rfl, ?_⟩
    simp only [hinit, Bool.not_true, Bool.false_eq_true, if_false] at h
    cases hsame : openHeader P st.assocData clientMsg emHeader st.headerKeyRecv with
    | some headerPlain =>
      simp only [hsame, Option.some.injEq, Prod.mk.injEq] at h
      exact .inl ⟨h.1.symm, by rw [h.2]⟩
    | none =>
      simp only [hsame] at h
      cases hnext : openHeader P st.assocData clientMsg emHeader st.nextHeaderKeyRecv with
      | none => simp [hnext] at h
      | some headerPlain =>
        simp only [hnext, Option.some.injEq, Prod.mk.injEq] at h
        exact .inr ⟨h.1.symm, rfl, by rw [h.2]⟩

/-- What one call does: it stops before the body with the state as it was, or hands the opened
header and the rest of the message to `ratchet_decrypt_body`. -/
theorem ratchetDecryptMessage_cases :
    ((ratchetDecryptMessage P idx enabled draws recvPq st m).body = none ∧
      (ratchetDecryptMessage P idx enabled draws recvPq st m).state = st) ∨
    (∃ mode opened peerDh pn ns,
      ratchetHeaderTryDecrypt P st m.clientMsg m.emHeader = some (mode, opened) ∧
      ratchetParseMsgHeader (memOf opened draws.headerJunk) = some (peerDh, pn, ns) ∧
      ratchetDecryptMessage P idx enabled draws recvPq st m =
        (ratchetDecryptBody P idx enabled draws.body
          (pqHeaderDeserialize (memOf opened draws.headerJunk)
            (ehBodyLen m.clientMsg m.emHeader)).toOption st
          (m.bodyCall mode peerDh pn ns draws.bodyJunk)).received) := by
  rw [ratchetDecryptMessage]
  cases draws.headerAlloc with
  | false => exact .inl ⟨rfl, rfl⟩
  | true =>
    simp only [Bool.not_true, Bool.false_eq_true, if_false]
    cases htry : ratchetHeaderTryDecrypt P st m.clientMsg m.emHeader with
    | none => exact .inl ⟨rfl, rfl⟩
    | some header =>
      obtain ⟨mode, opened⟩ := header
      simp only
      cases hparse : ratchetParseMsgHeader (memOf opened draws.headerJunk) with
      | none => exact .inl ⟨rfl, rfl⟩
      | some fields =>
        obtain ⟨peerDh, pn, ns⟩ := fields
        simp only
        split_ifs
        · exact .inl ⟨rfl, rfl⟩
        · exact .inr ⟨mode, opened, peerDh, pn, ns, rfl, hparse, rfl⟩

end Spec

/-! ## A message that was sent -/

section Sent

variable {P : Primitives K} {sender : RatchetState K} {header plaintext : List UInt8}
  {paddedLen : ℕ} {m : ClientMessage}

/-- The message is the whole rest of the client message. -/
structure Carries (m : ClientMessage) (wire : List UInt8) : Prop where
  holds : Holds m.clientMsg m.ermOffset wire
  originalLen : m.originalLen = m.ermOffset + wire.length

/-- A client message made of a sent message, with anything before and after it. -/
def clientMessageOf (before wire : List UInt8) (after : Mem) : ClientMessage where
  clientMsg := memOf (before ++ wire) after
  originalLen := (before ++ wire).length
  ermOffset := before.length

/-- A client message made of a wire message carries it. -/
theorem carries_clientMessageOf (before wire : List UInt8) (after : Mem) :
    Carries (clientMessageOf before wire after) wire where
  holds := by
    have h := holds_memOf (before ++ wire) after
    rw [holds_append, Nat.zero_add] at h
    exact h.2
  originalLen := List.length_append

/-- The encrypted header is 36 bytes longer than its content. -/
theorem emHeader_length (P : Primitives K) (sender : RatchetState K) (header : List UInt8) :
    (emHeader P sender header).length = 36 + header.length := by
  simp only [emHeader, List.length_append, be16_length, Vector.length_toList,
    P.aesGcmEncrypt_length]
  omega

/-- The parts of a sent message, at their offsets. -/
theorem Carries.parts (h : Carries m (encRatchetMessage P sender header plaintext paddedLen)) :
    Holds m.clientMsg m.ermOffset (be16 (36 + header.length)) ∧
      Holds m.clientMsg m.emHeader (emHeader P sender header) ∧
      Holds m.clientMsg (m.emHeader + (36 + header.length))
        (P.aesGcmEncrypt (P.kdfChain sender.chainKeySend).messageKey
          (P.kdfChain sender.chainKeySend).msgIv
          (sender.assocData.toList ++ emHeader P sender header)
          (paddedPayload plaintext paddedLen)).2.toList ∧
      Holds m.clientMsg (m.emHeader + (36 + header.length) + 16)
        (P.aesGcmEncrypt (P.kdfChain sender.chainKeySend).messageKey
          (P.kdfChain sender.chainKeySend).msgIv
          (sender.assocData.toList ++ emHeader P sender header)
          (paddedPayload plaintext paddedLen)).1 := by
  have hw := h.holds
  simp only [encRatchetMessage, holds_append, be16_length, Vector.length_toList,
    emHeader_length] at hw
  exact hw

/-- The length field of a sent message. -/
theorem Carries.emHeaderLen
    (h : Carries m (encRatchetMessage P sender header plaintext paddedLen))
    (hlen : header.length < 65500) : m.emHeaderLen = 36 + header.length :=
  read16_of_holds h.parts.1 (by omega)

/-- The header of a sent message in memory: version, IV, tag, length, ciphertext. -/
theorem Carries.header_parts
    (h : Carries m (encRatchetMessage P sender header plaintext paddedLen)) :
    let enc := P.aesGcmEncrypt sender.headerKeySend (P.kdfChain sender.chainKeySend).headerIv
      sender.assocData.toList header
    Holds m.clientMsg m.emHeader (be16 3) ∧
      Holds m.clientMsg (m.emHeader + 2) (P.kdfChain sender.chainKeySend).headerIv.toList ∧
      Holds m.clientMsg (m.emHeader + 18) enc.2.toList ∧
      Holds m.clientMsg (m.emHeader + 34) (be16 header.length) ∧
      Holds m.clientMsg (m.emHeader + 36) enc.1 := by
  have hw := h.parts.2.1
  simp only [SimpleGo.emHeader, holds_append, be16_length, Vector.length_toList] at hw
  exact hw

/-- The header length of a sent message. -/
theorem Carries.ehBodyLen
    (h : Carries m (encRatchetMessage P sender header plaintext paddedLen))
    (hlen : header.length < 65500) : ehBodyLen m.clientMsg m.emHeader = header.length := by
  obtain ⟨hver, -, -, hbody, -⟩ := h.header_parts
  rw [SimpleGo.ehBodyLen, if_pos (Nat.le_of_eq (read16_of_holds hver (by decide)).symm),
    read16_of_holds hbody (by omega)]

/-- Trial decryption of a sent header is decryption of what the sender encrypted. -/
theorem Carries.openHeader
    (h : Carries m (encRatchetMessage P sender header plaintext paddedLen))
    (hlen : header.length < 65500) (assocData : Bytes 112) (headerKey : K) :
    openHeader P assocData m.clientMsg m.emHeader headerKey =
      let enc := P.aesGcmEncrypt sender.headerKeySend (P.kdfChain sender.chainKeySend).headerIv
        sender.assocData.toList header
      P.aesGcmDecrypt headerKey (P.kdfChain sender.chainKeySend).headerIv assocData.toList
        enc.1 enc.2 := by
  obtain ⟨hver, hiv, htag, -, hct⟩ := h.header_parts
  have hoff : ehBodyOffset m.clientMsg m.emHeader = 36 := by
    rw [ehBodyOffset, if_pos (Nat.le_of_eq (read16_of_holds hver (by decide)).symm)]
  rw [SimpleGo.openHeader, hoff, h.ehBodyLen hlen, windowBytes_of_holds hiv,
    windowBytes_of_holds htag, hct.window_eq (P.aesGcmEncrypt_length _ _ _ _).symm]

/-- The call of `ratchet_decrypt_body` for a sent message. -/
def sentCall (P : Primitives K) (sender : RatchetState K) (header plaintext : List UInt8)
    (paddedLen : ℕ) (mode : DecryptMode) (junk : Mem) : BodyCall :=
  let keys := P.kdfChain sender.chainKeySend
  let enc := P.aesGcmEncrypt keys.messageKey keys.msgIv
    (sender.assocData.toList ++ emHeader P sender header) (paddedPayload plaintext paddedLen)
  { mode
    peerNewPub := sender.dhSelf.publicKey
    msgPn := sender.prevChainLen
    msgNs := sender.msgNumSend
    emHeaderRaw := emHeader P sender header
    emAuthTag := enc.2
    emBody := enc.1
    junk }

/-- The length the receiver computes is that of the message. -/
theorem Carries.originalLen_eq
    (h : Carries m (encRatchetMessage P sender header plaintext paddedLen))
    (hlen : header.length < 65500) :
    m.originalLen = m.bodyOffset + (paddedPayload plaintext paddedLen).length := by
  rw [h.originalLen, ClientMessage.bodyOffset, h.emHeaderLen hlen, ClientMessage.emHeader]
  simp only [encRatchetMessage, List.length_append, be16_length, Vector.length_toList,
    emHeader_length, P.aesGcmEncrypt_length]
  omega

/-- The pipeline hands over what the sender put in. -/
theorem Carries.bodyCall
    (h : Carries m (encRatchetMessage P sender header plaintext paddedLen))
    (hlen : header.length < 65500) (mode : DecryptMode) (junk : Mem) :
    m.bodyCall mode sender.dhSelf.publicKey sender.prevChainLen sender.msgNumSend junk =
      sentCall P sender header plaintext paddedLen mode junk := by
  obtain ⟨-, hem, htag, hct⟩ := h.parts
  have hbody : m.originalLen - m.bodyOffset = (paddedPayload plaintext paddedLen).length := by
    rw [h.originalLen_eq hlen]
    omega
  rw [ClientMessage.bodyCall, sentCall, hbody, ClientMessage.bodyOffset,
    ClientMessage.authOffset, h.emHeaderLen hlen, windowBytes_of_holds htag,
    hem.window_eq (emHeader_length P sender header).symm,
    hct.window_eq (P.aesGcmEncrypt_length _ _ _ _).symm]

/-- A payload that fits its length field and its padding, which is a 32-bit `size_t`. -/
def PayloadFits (plaintext : List UInt8) (paddedLen : ℕ) : Prop :=
  plaintext.length ≤ 65535 ∧ plaintext.length + 2 ≤ paddedLen ∧ paddedLen < 2 ^ 32

/-- `unPad` inverts the padding. -/
theorem unPad_paddedPayload (junk : Mem) (hfits : PayloadFits plaintext paddedLen) :
    unPad junk (paddedPayload plaintext paddedLen) = some plaintext := by
  obtain ⟨hfield, hpad, hsize⟩ := hfits
  have hheld := holds_memOf (paddedPayload plaintext paddedLen) junk
  have hlen : (paddedPayload plaintext paddedLen).length = paddedLen := by
    simp only [paddedPayload, List.length_append, be16_length, hashPadding_length]
    omega
  rw [paddedPayload, holds_append, holds_append, be16_length, Nat.zero_add] at hheld
  have hread : read16 (memOf (paddedPayload plaintext paddedLen) junk) 0 = plaintext.length :=
    read16_of_holds hheld.1 (by omega)
  have hwindow : window (memOf (paddedPayload plaintext paddedLen) junk) 2 plaintext.length =
      plaintext := hheld.2.1
  have hbound : ¬ (2 ^ 32 - 2 + paddedLen) % 2 ^ 32 < plaintext.length := by omega
  simp only [unPad, hlen, hread, hwindow]
  rw [if_neg hbound]

/-- A body opens where its ciphertext does and its length field is in bounds. -/
theorem openBody_of_opens {assocData : Bytes 112} {call : BodyCall} {chainKey : K}
    {padded : List UInt8}
    (hopen : P.aesGcmDecrypt (P.kdfChain chainKey).messageKey (P.kdfChain chainKey).msgIv
      (assocData.toList ++ call.emHeaderRaw) call.emBody call.emAuthTag = some padded)
    (hpad : unPad call.junk padded = some plaintext) :
    openBody P assocData call true chainKey = .ok plaintext := by
  simp only [openBody, Bool.not_true, Bool.false_eq_true, if_false, hopen, hpad]

/-- The body of a sent message opens from the chain key it was encrypted from. -/
theorem openBody_sentCall (hgcm : P.GcmCorrect) (hfits : PayloadFits plaintext paddedLen)
    (mode : DecryptMode) (junk : Mem) :
    openBody P sender.assocData (sentCall P sender header plaintext paddedLen mode junk) true
      sender.chainKeySend = .ok plaintext :=
  openBody_of_opens (hgcm _ _ _ _) (unPad_paddedPayload junk hfits)

/-- The parsed header of a sent message. -/
def sentHeader (enabled : Bool) (sender : RatchetState K) : ParsedMsgHeader where
  version := 3
  dhPublic := sender.dhSelf.publicKey
  kem := emittedKem (pqSendActive enabled sender.pq) sender.pq
  pn := sender.prevChainLen
  ns := sender.msgNumSend

variable {senderEnabled : Bool} {st : RatchetState K}

/-- An emitted header is short. -/
theorem emittedHeader_length_lt (senderEnabled : Bool) (sender : RatchetState K) :
    (emittedHeader senderEnabled sender).length < 65500 := by
  rw [emittedHeader_length]
  cases pqSendActive senderEnabled sender.pq <;> decide

/-- A sent header opens under the key it was encrypted under. -/
theorem Carries.openHeader_self (hgcm : P.GcmCorrect)
    (h : Carries m (encRatchetMessage P sender header plaintext paddedLen))
    (hlen : header.length < 65500) :
    SimpleGo.openHeader P sender.assocData m.clientMsg m.emHeader sender.headerKeySend =
      some header := by
  rw [h.openHeader hlen]
  exact hgcm _ _ _ _

/-- A sent message is SAME for a party that receives under the sender's header key. -/
theorem Carries.tryDecrypt_same (hgcm : P.GcmCorrect)
    (h : Carries m (encRatchetMessage P sender header plaintext paddedLen))
    (hlen : header.length < 65500) (hinit : st.initialized = true)
    (hassoc : st.assocData = sender.assocData) (hkey : st.headerKeyRecv = sender.headerKeySend) :
    ratchetHeaderTryDecrypt P st m.clientMsg m.emHeader = some (.same, header) := by
  rw [ratchetHeaderTryDecrypt, if_neg (by simp [hinit]), hassoc, hkey,
    h.openHeader_self hgcm hlen]

/-- A sent message is ADVANCE for a party whose current key does not open it and whose next key
is the sender's. -/
theorem Carries.tryDecrypt_advance (hgcm : P.GcmCorrect)
    (h : Carries m (encRatchetMessage P sender header plaintext paddedLen))
    (hlen : header.length < 65500) (hinit : st.initialized = true)
    (hassoc : st.assocData = sender.assocData)
    (hcur : SimpleGo.openHeader P st.assocData m.clientMsg m.emHeader st.headerKeyRecv = none)
    (hkey : st.nextHeaderKeyRecv = sender.headerKeySend) :
    ratchetHeaderTryDecrypt P st m.clientMsg m.emHeader = some (.advance, header) := by
  rw [ratchetHeaderTryDecrypt, if_neg (by simp [hinit]), hcur, hassoc, hkey,
    h.openHeader_self hgcm hlen]

/-- The pipeline on a sent message whose header opened: the ratchet gets the sender's fields. -/
theorem Carries.decryptMessage {idx : ℕ} {enabled : Bool} {draws : ReceiveDraws}
    {recvPq : Option ParsedMsgHeader} {mode : DecryptMode}
    (h : Carries m
      (encRatchetMessage P sender (emittedHeader senderEnabled sender) plaintext paddedLen))
    (htry : ratchetHeaderTryDecrypt P st m.clientMsg m.emHeader =
      some (mode, emittedHeader senderEnabled sender))
    (hheader : draws.headerAlloc = true) (hbody : draws.bodyAlloc = true) :
    ratchetDecryptMessage P idx enabled draws recvPq st m =
      (ratchetDecryptBody P idx enabled draws.body (some (sentHeader senderEnabled sender)) st
        (sentCall P sender (emittedHeader senderEnabled sender) plaintext paddedLen mode
          draws.bodyJunk)).received := by
  have hlen := emittedHeader_length_lt senderEnabled sender
  have hparse : ratchetParseMsgHeader
      (memOf (emittedHeader senderEnabled sender) draws.headerJunk) =
      some (sender.dhSelf.publicKey, sender.prevChainLen, sender.msgNumSend) :=
    ratchetParseMsgHeader_of_holds (holds_memOf _ _)
  have hpq := pqHeaderDeserialize_emittedHeader senderEnabled sender draws.headerJunk
  have hpayload : 0 < (paddedPayload plaintext paddedLen).length := by
    simp only [paddedPayload, List.length_append, be16_length]
    omega
  have hbounds : m.bodyOffset < m.originalLen := by
    rw [h.originalLen_eq hlen]
    omega
  have hin : (m.originalLen ≤ m.bodyOffset || m.originalLen < m.authOffset + 16 ||
      !draws.bodyAlloc) = false := by
    have hauth : m.authOffset + 16 = m.bodyOffset := rfl
    simp only [hauth, hbody, Bool.not_true, Bool.or_false, Bool.or_eq_false_iff,
      decide_eq_false_iff_not]
    omega
  rw [ratchetDecryptMessage, if_neg (by simp [hheader]), htry]
  simp only [hparse, hin, Bool.false_eq_true, if_false, h.ehBodyLen hlen, hpq,
    h.bodyCall hlen]
  rfl

end Sent

end SimpleGo
