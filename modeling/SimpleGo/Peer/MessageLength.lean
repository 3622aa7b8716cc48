import SimpleGo.Agent.Receive
import SimpleGo.Crypto.Symbolic
import SimpleGo.Peer.AgentMessage

/-!
# The length of what is sent

`ratchet_encrypt` pads a message to the length its caller asks for; with PQ on the header is
longer and the body is padded to less. `encrypt_and_send_agent_msg` pads the result once more,
boxes it for the peer's queue and signs it. The length of what leaves the device is a function of
the length asked for and of the length of the queue id, whatever the message, the KEM field of the
header and the PQ setting.
-/

namespace SimpleGo

open Lib

variable {K : Type}

/-- `crypto_box_MACBYTES`. -/
def cryptoBoxMacBytes : ℕ := 16

/-- `E2E_PADDED_LENGTH`. -/
def e2ePaddedLength : ℕ := 16000

/-- The functions of libsodium that a transmission is made with. -/
structure SealFunctions where
  /-- `crypto_box_easy`. -/
  cryptoBoxEasy : (plain : List UInt8) → (nonce : Bytes 24) → (peerDhPublic ourDhPrivate : Bytes 32) →
    Option (List UInt8)
  /-- `crypto_sign_detached`. -/
  cryptoSignDetached : (message : List UInt8) → (secret : Bytes 64) → Bytes 64
  /-- A box is longer than its plaintext by the MAC. -/
  cryptoBoxEasy_length : ∀ plain nonce pub priv cipher,
    cryptoBoxEasy plain nonce pub priv = some cipher →
      cipher.length = plain.length + cryptoBoxMacBytes

/-- A call of `ratchet_encrypt`, but for the padded length: the slot, the PQ setting, whether
something fails after the chain step, the working copy and the plaintext. -/
structure EncryptCall (K : Type) where
  idx : ℕ
  enabled : Bool
  cleanup : Bool
  ratchet : RatchetState K
  plaintext : List UInt8

namespace EncryptCall

/-- The call accepts its plaintext and returns a ciphertext. The `#` are written for an unsigned
difference, so that the code relies on the plaintext to fit its padded length. -/
def Returns (P : Primitives K) (call : EncryptCall K) (paddedMsgLen : ℕ) (output : List UInt8) :
    Prop :=
  (ratchetEncrypt P call.idx call.enabled call.cleanup call.ratchet call.plaintext
    paddedMsgLen).output = some output ∧
  ∀ paddedLen ∈ effectivePaddedLen (pqSendActive call.enabled call.ratchet.pq) paddedMsgLen,
    2 + call.plaintext.length ≤ paddedLen

end EncryptCall

/-- A call of `encrypt_and_send_agent_msg` up to its write; the plaintext is `msg_plain`, and
`allocs` tells whether the buffers can be had. -/
structure SendCall (K : Type) extends EncryptCall K where
  allocs : Bool
  sessionId : Bytes 32
  peerQueueId : List UInt8
  peerDhPublic : Bytes 32
  ourDhPrivate : Bytes 32
  sndAuthPrivate : Bytes 64
  corrId : UInt8
  notify : Bool
  nonce : Bytes 24

namespace SendCall

variable (P : Primitives K) (S : SealFunctions) (call : SendCall K)

/-- The padded length `build_agent_msg_envelope` asks for. -/
def agentPaddedLen : ℕ := 15840

/-- `build_agent_msg_envelope`: agent version 7, the tag `M`, the ciphertext. -/
def buildAgentMsgEnvelope : Option (List UInt8) :=
  (ratchetEncrypt P call.idx call.enabled call.cleanup call.ratchet call.plaintext
    agentPaddedLen).output.map fun enc => 0x00 :: 0x07 :: 0x4D :: enc

/-- `client_msg`: version 4, no new DH key, the nonce and the box. -/
def clientMsg (encBuf : List UInt8) : List UInt8 :=
  0x00 :: 0x04 :: 0x30 :: (call.nonce.toList ++ encBuf)

/-- `send_body`: correlation id, the peer's queue, the SEND with its flags, the body. -/
def sendBody (encBuf : List UInt8) : List UInt8 :=
  1 :: call.corrId :: UInt8.ofNat call.peerQueueId.length ::
    (call.peerQueueId ++ (asciiBytes "SEND " ++
      ((if call.notify then 0x54 else 0x46) :: 0x20 :: call.clientMsg encBuf)))

/-- `authorized`: the session id before the body. -/
def authorized (encBuf : List UInt8) : List UInt8 :=
  32 :: (call.sessionId.toList ++ call.sendBody encBuf)

/-- The `transmission` of `encrypt_and_send_agent_msg`: `_` and the envelope, padded and boxed, in
a signed SEND. -/
def transmission : Option (List UInt8) :=
  (call.buildAgentMsgEnvelope P).bind fun envelope =>
    if call.allocs then
      (S.cryptoBoxEasy (paddedPayload (0x5F :: envelope) e2ePaddedLength) call.nonce
        call.peerDhPublic call.ourDhPrivate).map fun encBuf =>
          let authorized := call.authorized encBuf
          64 :: ((S.cryptoSignDetached authorized call.sndAuthPrivate).toList ++ authorized)
    else none

/-- The call builds a transmission, from a message that fits. -/
def Builds (transmission : List UInt8) : Prop :=
  call.transmission P S = some transmission ∧
  ∀ paddedLen ∈ effectivePaddedLen (pqSendActive call.enabled call.ratchet.pq) agentPaddedLen,
    2 + call.plaintext.length ≤ paddedLen

end SendCall

/-! ### Lengths -/

/-- A body that fits is padded to its length. -/
theorem paddedPayload_length {plaintext : List UInt8} {paddedLen : ℕ}
    (h : 2 + plaintext.length ≤ paddedLen) :
    (paddedPayload plaintext paddedLen).length = paddedLen := by
  simp only [paddedPayload, List.length_append, be16_length, hashPadding_length]
  omega

/-- No KEM field is longer than that of an accepted KEM, in no state. -/
theorem serializeKem_length_le (isPq : Bool) (pq : PqKemState) :
    (serializeKem isPq pq).length ≤ 2203 := by
  rw [serializeKem]
  split
  · exact MsgKem.encode_length_le _
  · split
    · exact MsgKem.encode_length_le _
    · split
      · exact MsgKem.encode_length_le _
      · exact Nat.zero_le _

/-- A header has its padded length, whatever the KEM state. -/
theorem messageHeader_length {enabled : Bool} {dhPublic : Bytes 56} {pq : PqKemState}
    {pn ns : UInt32} {header : List UInt8}
    (h : messageHeader enabled dhPublic pq pn ns = some header) :
    header.length = hdrPadded (pqSendActive enabled pq) := by
  rw [messageHeader] at h
  cases hpq : pqSendActive enabled pq with
  | true =>
    rw [if_pos hpq, pqHeaderSerialize] at h
    simp only [hpq, if_true, Nat.lt_irrefl, if_false, Option.some.injEq] at h
    rw [← h]
    apply paddedHeader_length
    have hkem := serializeKem_length_le true pq
    rw [headerContent_length, msgHeaderPqPaddedLen]
    omega
  | false =>
    rw [if_neg (by simp [hpq]), Option.some.injEq, buildMsgHeader_eq] at h
    rw [← h]
    apply paddedHeader_length
    rw [headerContent_length]
    decide

/-- The ciphertext: the header and the padded body, and 54 bytes around them. -/
theorem encRatchetMessage_length (P : Primitives K) (st : RatchetState K)
    (header : List UInt8) {plaintext : List UInt8} {paddedLen : ℕ}
    (h : 2 + plaintext.length ≤ paddedLen) :
    (encRatchetMessage P st header plaintext paddedLen).length =
      header.length + paddedLen + 54 := by
  simp only [encRatchetMessage, List.length_append, be16_length, Vector.length_toList,
    P.aesGcmEncrypt_length, emHeader_length, paddedPayload_length h]
  omega

/-- What the header takes, the body gives back. -/
theorem hdrPadded_add_effective {isPq : Bool} {paddedMsgLen paddedLen : ℕ}
    (h : effectivePaddedLen isPq paddedMsgLen = some paddedLen) :
    hdrPadded isPq + paddedLen = msgHeaderPaddedLen + paddedMsgLen := by
  cases isPq with
  | false =>
    rw [effectivePaddedLen, if_neg Bool.false_ne_true, Option.some.injEq] at h
    rw [hdrPadded, if_neg Bool.false_ne_true, h]
  | true =>
    rw [effectivePaddedLen, if_pos rfl, msgHeaderPqPaddedLen, msgHeaderPaddedLen] at h
    split at h
    · rw [Option.some.injEq] at h
      rw [hdrPadded, if_pos rfl, msgHeaderPqPaddedLen, msgHeaderPaddedLen]
      omega
    · cases h

namespace EncryptCall

variable {P : Primitives K} {call : EncryptCall K} {paddedMsgLen : ℕ} {output : List UInt8}

/-- A call that is admitted returns a ciphertext for what fits, unless something fails. -/
theorem exists_returns (hadm : encryptAdmitted call.enabled call.ratchet paddedMsgLen = true)
    (hclean : call.cleanup = false)
    (hfits : ∀ paddedLen ∈ effectivePaddedLen (pqSendActive call.enabled call.ratchet.pq)
      paddedMsgLen, 2 + call.plaintext.length ≤ paddedLen) :
    ∃ output, call.Returns P paddedMsgLen output := by
  obtain ⟨output, hout⟩ := Option.isSome_iff_exists.1
    ((ratchetEncrypt_output_isSome P call.idx call.enabled call.cleanup call.ratchet
      call.plaintext paddedMsgLen).2 ⟨hadm, hclean⟩)
  exact ⟨output, hout, hfits⟩

/-- The length of a ciphertext. -/
theorem Returns.length (h : call.Returns P paddedMsgLen output) :
    output.length = paddedMsgLen + 142 := by
  obtain ⟨hout, hfits⟩ := h
  rcases ratchetEncrypt_cases P call.idx call.enabled call.cleanup call.ratchet call.plaintext
      paddedMsgLen with ⟨_, heq⟩ | ⟨_, _, heq⟩ | ⟨_, _, paddedLen, header, hlen, hheader, heq⟩
  · rw [heq] at hout
    cases hout
  · rw [heq] at hout
    cases hout
  · rw [heq, Option.some.injEq] at hout
    have hsum := hdrPadded_add_effective hlen
    rw [← hout, encRatchetMessage_length P _ header (hfits paddedLen hlen),
      messageHeader_length hheader]
    rw [msgHeaderPaddedLen] at hsum
    omega

end EncryptCall

namespace SendCall

variable {P : Primitives K} {S : SealFunctions} {call : SendCall K} {tx : List UInt8}

/-- The signed part of a transmission. -/
theorem authorized_length (call : SendCall K) (encBuf : List UInt8) :
    (call.authorized encBuf).length = call.peerQueueId.length + encBuf.length + 70 := by
  have hsend : (asciiBytes "SEND ").length = 5 := by decide
  simp only [authorized, sendBody, clientMsg, List.length_cons, List.length_append,
    Vector.length_toList, hsend]
  omega

/-- A message that fits is accepted by the ratchet where its transmission is built. -/
theorem Builds.returns (h : call.Builds P S tx) :
    ∃ enc encBuf, call.Returns P agentPaddedLen enc ∧
      S.cryptoBoxEasy (paddedPayload (0x5F :: 0x00 :: 0x07 :: 0x4D :: enc) e2ePaddedLength)
        call.nonce call.peerDhPublic call.ourDhPrivate = some encBuf ∧
      tx = 64 :: ((S.cryptoSignDetached (call.authorized encBuf) call.sndAuthPrivate).toList ++
        call.authorized encBuf) := by
  obtain ⟨hbuilt, hfits⟩ := h
  simp only [transmission, buildAgentMsgEnvelope, Option.bind_eq_some_iff,
    Option.map_eq_some_iff] at hbuilt
  obtain ⟨_, ⟨enc, henc, rfl⟩, hbuilt⟩ := hbuilt
  split at hbuilt
  · obtain ⟨encBuf, hbox, htx⟩ := Option.map_eq_some_iff.1 hbuilt
    exact ⟨enc, encBuf, ⟨henc, hfits⟩, hbox, htx.symm⟩
  · cases hbuilt

/-- A transmission is built around a ciphertext when the buffers can be had and the box is made. -/
theorem exists_builds {enc : List UInt8} (henc : call.Returns P agentPaddedLen enc)
    (hallocs : call.allocs = true)
    (hbox : ∀ plain, (S.cryptoBoxEasy plain call.nonce call.peerDhPublic
      call.ourDhPrivate).isSome = true) :
    ∃ tx, call.Builds P S tx := by
  obtain ⟨encBuf, hencBuf⟩ := Option.isSome_iff_exists.1
    (hbox (paddedPayload (0x5F :: 0x00 :: 0x07 :: 0x4D :: enc) e2ePaddedLength))
  refine ⟨64 :: ((S.cryptoSignDetached (call.authorized encBuf) call.sndAuthPrivate).toList ++
    call.authorized encBuf), ?_, henc.2⟩
  rw [transmission, buildAgentMsgEnvelope, henc.1, Option.map_some, Option.bind_some,
    if_pos hallocs, hencBuf, Option.map_some]

/-- The length of a transmission. -/
theorem Builds.length (h : call.Builds P S tx) :
    tx.length = call.peerQueueId.length + 16151 := by
  obtain ⟨enc, encBuf, hreturns, hbox, rfl⟩ := h.returns
  have henc := hreturns.length
  rw [agentPaddedLen] at henc
  have hbuf := S.cryptoBoxEasy_length _ _ _ _ _ hbox
  rw [paddedPayload_length (by simp only [List.length_cons, henc, e2ePaddedLength]; omega)] at hbuf
  simp only [List.length_cons, List.length_append, Vector.length_toList, authorized_length, hbuf,
    e2ePaddedLength, cryptoBoxMacBytes]
  omega

end SendCall

/-- Every message the device builds fits, with PQ on and off. -/
theorem agentMessage_fits {kind : AgentSend} {msgId : UInt64} {hash : Bytes 32}
    (hbuilt : kind.fits (agentMessage msgId hash kind.aMessage) = true)
    (hchat : ∀ message, kind = .chat message → message.length ≤ 255) (isPq : Bool) :
    ∀ paddedLen ∈ effectivePaddedLen isPq SendCall.agentPaddedLen,
      2 + (agentMessage msgId hash kind.aMessage).length ≤ paddedLen := by
  intro paddedLen hpadded
  have hmin : 13618 ≤ paddedLen := by
    have hsum := hdrPadded_add_effective hpadded
    cases isPq <;> simp only [hdrPadded, if_true, Bool.false_eq_true, if_false,
      msgHeaderPqPaddedLen, msgHeaderPaddedLen, SendCall.agentPaddedLen] at hsum <;> omega
  have hlen : (agentMessage msgId hash kind.aMessage).length ≤ 1024 := by
    cases kind with
    | raw a => exact of_decide_eq_true hbuilt
    | hello => simp only [agentMessage, AgentSend.aMessage]; split <;> simp
    | chat message =>
      have hshort := hchat message rfl
      have hopen : (asciiBytes
        "\x7b\"v\":\"1\",\"event\":\"x.msg.new\",\"params\":\x7b\"content\":\x7b").length ≤ 60 := by
        decide
      have htext : (asciiBytes "\"type\":\"text\",\"text\":\"").length ≤ 30 := by decide
      have hclose : (asciiBytes "\"\x7d\x7d\x7d").length = 4 := by decide
      simp only [agentMessage, AgentSend.aMessage, List.cons_append, List.length_cons,
        List.length_append, be64_length, hclose]
      split <;> simp only [List.length_cons, List.length_nil, Vector.length_toList] <;> omega
    | receipt peerSndMsgId msgHash => simp only [agentMessage, AgentSend.aMessage]; split <;> simp
  omega

/-- Two ciphertexts for one padded length have one length, and so do two transmissions to queues
whose ids have one length. -/
theorem ciphertext_length_hides_content (P : Primitives K) (S : SealFunctions) :
    (∀ (paddedMsgLen : ℕ) (call call' : EncryptCall K) (output output' : List UInt8),
      call.Returns P paddedMsgLen output → call'.Returns P paddedMsgLen output' →
        output.length = output'.length) ∧
    (∀ (call call' : SendCall K) (tx tx' : List UInt8),
      call.peerQueueId.length = call'.peerQueueId.length →
        call.Builds P S tx → call'.Builds P S tx' → tx.length = tx'.length) := by
  constructor
  · intro paddedMsgLen call call' output output' h h'
    rw [h.length, h'.length]
  · intro call call' tx tx' hid h h'
    rw [h.length, h'.length, hid]

/-- Boxes that append a MAC of zeros. -/
def plainSeal : SealFunctions where
  cryptoBoxEasy plain _ _ _ := some (plain ++ List.replicate cryptoBoxMacBytes 0)
  cryptoSignDetached _ _ := zeroBytes 64
  cryptoBoxEasy_length plain _ _ _ cipher h := by
    rw [← Option.some.inj h, List.length_append, List.length_replicate]

/-- A send over a ratchet whose KEM state is the given one. -/
def sampleSend (pq : PqKemState) (message : List UInt8) (corrId : UInt8) : SendCall SymKey where
  idx := 0
  enabled := true
  cleanup := false
  ratchet := { RatchetState.zero symbolic with initialized := true, pq }
  plaintext := message
  allocs := true
  sessionId := zeroBytes 32
  peerQueueId := List.replicate 24 corrId
  peerDhPublic := zeroBytes 32
  ourDhPrivate := zeroBytes 32
  sndAuthPrivate := zeroBytes 64
  corrId
  notify := true
  nonce := zeroBytes 24

@[simp] theorem sampleSend_queueId (pq : PqKemState) (message : List UInt8) (corrId : UInt8) :
    (sampleSend pq message corrId).peerQueueId.length = 24 := List.length_replicate

/-- Such a send is accepted by the ratchet, and its transmission is built. -/
theorem sampleSend_builds (pq : PqKemState) {message : List UInt8} (hmsg : message.length ≤ 1000)
    (corrId : UInt8) :
    (∃ output, (sampleSend pq message corrId).Returns symbolic 15840 output) ∧
    ∃ tx, (sampleSend pq message corrId).Builds symbolic plainSeal tx := by
  have hlen : ∀ isPq, effectivePaddedLen isPq 15840 = some (if isPq then 13618 else 15840) := by
    decide
  have hreturns : ∃ output, (sampleSend pq message corrId).Returns symbolic 15840 output := by
    refine EncryptCall.exists_returns ?_ rfl ?_
    · rw [encryptAdmitted, hlen]
      rfl
    · intro paddedLen hpadded
      rw [hlen, Option.mem_some_iff] at hpadded
      change 2 + message.length ≤ paddedLen
      rw [← hpadded]
      split <;> omega
  obtain ⟨output, hreturned⟩ := hreturns
  exact ⟨⟨output, hreturned⟩, SendCall.exists_builds hreturned rfl fun _ => rfl⟩

/-- A short message without PQ, and a long one with a KEM ciphertext in its header. -/
theorem ciphertext_length_hides_content_pq :
    (∃ output output', (sampleSend .zero [104, 105] 65).Returns symbolic 15840 output ∧
      (sampleSend { PqKemState.zero with pqActive := 1, pqKemState := 2 } (List.replicate 900 97)
        82).Returns symbolic 15840 output' ∧ output.length = output'.length) ∧
    (∃ tx tx', (sampleSend .zero [104, 105] 65).Builds symbolic plainSeal tx ∧
      (sampleSend { PqKemState.zero with pqActive := 1, pqKemState := 2 } (List.replicate 900 97)
        82).Builds symbolic plainSeal tx' ∧ tx.length = tx'.length) := by
  obtain ⟨⟨output, hout⟩, tx, htx⟩ := sampleSend_builds .zero
    (show [104, 105].length ≤ 1000 by decide) 65
  obtain ⟨⟨output', hout'⟩, tx', htx'⟩ := sampleSend_builds
    { PqKemState.zero with pqActive := 1, pqKemState := 2 }
    (show (List.replicate 900 97).length ≤ 1000 by rw [List.length_replicate]; decide) 82
  have h := ciphertext_length_hides_content symbolic plainSeal
  exact ⟨⟨output, output', hout, hout', h.1 _ _ _ _ _ hout hout'⟩,
    tx, tx', htx, htx', h.2 _ _ _ _ (by simp only [sampleSend_queueId]) htx htx'⟩

end SimpleGo
