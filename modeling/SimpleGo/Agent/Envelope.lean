import SimpleGo.Agent.Invitation
import SimpleGo.Rotation.Device

/-!
# The layers around a message

A MSG is encrypted twice: by the server for the queue, and by the sender for an E2E key of the
receiver. `smp_e2e_decrypt_reply_message_ex` opens both. The sender's E2E key stands in the
envelope, or it is the one the caller has kept from an earlier message; nothing ties a key in an
envelope to a contact.
-/

namespace SimpleGo

open Lib

/-- The functions that open a box: those of libsodium, and `simplex_secretbox_open`. -/
structure Boxes extends Sodium where
  /-- `crypto_scalarmult`. -/
  scalarmult : (priv pub : Bytes 32) → Option (Bytes 32)
  /-- `crypto_box_open_easy_afternm`. -/
  boxOpenAfternm : (shared : Bytes 32) → (nonce : Bytes 24) → (cipher : List UInt8) →
    Option (List UInt8)
  /-- `crypto_box_open_easy`. -/
  boxOpen : (pub priv : Bytes 32) → (nonce : Bytes 24) → (cipher : List UInt8) →
    Option (List UInt8)
  /-- `crypto_secretbox_open_easy`. -/
  secretboxOpen : (key : Bytes 32) → (nonce : Bytes 24) → (cipher : List UInt8) →
    Option (List UInt8)
  /-- `simplex_secretbox_open`. -/
  simplexSecretboxOpen : (key : Bytes 32) → (nonce : Bytes 24) → (cipher : List UInt8) →
    Option (List UInt8)

/-- The encrypted part of a MSG and its id, of at most 24 bytes. -/
structure EncryptedMsg where
  encrypted : List UInt8
  msgId : List UInt8

/-- The nonce of the server layer: the message id, filled up with zeros. -/
def EncryptedMsg.serverNonce (m : EncryptedMsg) : Bytes 24 := bytesAt m.msgId 0 24

/-- `decrypt_smp_message`. -/
def decryptSmpMessage (B : Boxes) (c : Contact) (m : EncryptedMsg) : Option (List UInt8) :=
  if c.haveSrvDh = 0 ∨ m.encrypted.length ≤ 16 then none
  else
    (B.beforenm c.srvDhPublic c.rcvDhSecret).bind fun shared =>
      B.boxOpenAfternm shared m.serverNonce m.encrypted

/-- `decrypt_client_msg`: the nonce stands before the ciphertext. -/
def decryptClientMsg (B : Boxes) (enc : List UInt8) (senderDhPub ourDhPriv : Bytes 32) :
    Option (List UInt8) :=
  if enc.length < 24 + 16 then none
  else B.boxOpen senderDhPub ourDhPriv (bytesAt enc 0 24) (enc.drop 24)

/-- A sender key, whether it stands in the envelope, and the offset behind it. -/
structure SenderKey where
  senderPub : Bytes 32
  isNew : Bool
  offset : ℕ

/-- There is an SPKI header at an offset. -/
def spkiAt (envelope : Mem) (off : ℕ) : Bool := window envelope off 12 = RotationDevice.x25519SpkiHdr

/-- `extract_sender_key_ex` from its first offset, 12, on. -/
def extractSenderKeyEx (envelope : Mem) (envelopeLen : ℕ) (cached : Option (Bytes 32)) :
    Option SenderKey :=
  let maybeCorrId := envelope 12
  let maybeE2e := envelope 13
  if maybeCorrId = 0x31 ∧ (maybeE2e = 0x2C ∨ maybeE2e = 0x30) then
    if spkiAt envelope 14 then some ⟨windowBytes envelope 26 32, true, 58⟩ else none
  else if maybeCorrId = 0x31 ∧ maybeE2e = 0x31 then
    if envelope 58 = 44 ∧ spkiAt envelope 59 then some ⟨windowBytes envelope 71 32, true, 103⟩
    else none
  else if maybeCorrId = 0x2C ∨ maybeCorrId = 0x30 then
    -- The nonce starts at what was read as the second byte.
    cached.map fun key => ⟨key, false, 13⟩
  else
    ((List.range' 10 11).find? fun tryOff =>
      tryOff + 44 ≤ envelopeLen ∧ spkiAt envelope tryOff).map fun tryOff =>
        ⟨windowBytes envelope (tryOff + 12) 32, true, tryOff + 44⟩

/-- `try_e2e_decrypt_ex`: the four methods, in order; `alloc` is the buffer of the first. -/
def tryE2eDecryptEx (B : Boxes) (alloc : Bool) (block : List UInt8)
    (senderPub e2ePrivate : Bytes 32) : Option (List UInt8) :=
  let cmNonce := bytesAt block 0 24
  let ciphertext := block.drop 24
  (B.scalarmult e2ePrivate senderPub).bind fun dhSecret =>
    (if alloc then (decryptClientMsg B block senderPub e2ePrivate).filter (0 < ·.length) else none)
      <|> B.boxOpen senderPub e2ePrivate cmNonce ciphertext
      <|> B.secretboxOpen dhSecret cmNonce ciphertext
      <|> B.simplexSecretboxOpen dhSecret cmNonce ciphertext

/-- What the environment decides while an envelope is opened: the allocations, and what lies
behind the server's plaintext. -/
structure EnvelopeEnv where
  serverAlloc : Bool
  serverJunk : Mem
  plainAlloc : Bool
  methodAlloc : Bool

/-- What opening an envelope leaves: the key that stood in it, and the key it was opened with
together with the text. -/
structure OpenedEnvelope where
  newPeer : Option (Bytes 32)
  plain : Option (Bytes 32 × List UInt8)

/-- The E2E layer of `smp_e2e_decrypt_reply_message_ex`. -/
def openE2eLayer (B : Boxes) (env : EnvelopeEnv) (serverPlain : List UInt8) (e2ePrivate : Bytes 32)
    (cached : Option (Bytes 32)) : OpenedEnvelope :=
  let buffer := memOf serverPlain env.serverJunk
  let envelopeLen := read16 buffer 0
  let prefixLen := if 2 < serverPlain.length ∧ (buffer 0 ≠ 0 ∨ buffer 1 ≠ 0) then 2 else 0
  let envelope : Mem := fun i => buffer (prefixLen + i)
  match extractSenderKeyEx envelope envelopeLen cached with
  | none => ⟨none, none⟩
  | some key =>
    let newPeer := if key.isNew then some key.senderPub else none
    if envelopeLen < key.offset + 24 + 16 ∨ !env.plainAlloc then ⟨newPeer, none⟩
    else
      ⟨newPeer, (tryE2eDecryptEx B env.methodAlloc
        (window envelope key.offset (envelopeLen - key.offset)) key.senderPub e2ePrivate).map
          fun text => (key.senderPub, text)⟩

/-- `smp_e2e_decrypt_reply_message_ex`. -/
def smpE2eDecryptReplyMessageEx (B : Boxes) (env : EnvelopeEnv) (m : EncryptedMsg)
    (sharedSecret e2ePrivate : Bytes 32) (cached : Option (Bytes 32)) : OpenedEnvelope :=
  if !env.serverAlloc then ⟨none, none⟩
  else
    match B.boxOpenAfternm sharedSecret m.serverNonce m.encrypted with
    | none => ⟨none, none⟩
    | some serverPlain => openE2eLayer B env serverPlain e2ePrivate cached

/-! ### The message in a server plaintext -/

/-- The content `parse_agent_message` looks at: behind a length prefix that fits, else all. -/
def agentContent (plain : List UInt8) : List UInt8 :=
  let prefixLen := read16 (memOf plain fun _ => 0) 0
  if 2 ≤ plain.length ∧ 0 < prefixLen ∧ prefixLen < plain.length - 2 ∧ prefixLen < 16100 then
    (plain.drop 2).take prefixLen
  else plain

/-- The first SPKI header in a content. -/
def senderKeyOffset (content : List UInt8) : Option ℕ :=
  (List.range (content.length - 44)).find? fun i =>
    (content.drop i).take 12 = RotationDevice.x25519SpkiHdr

/-- The text behind the first key of a content, opened with that key. -/
def clientText (B : Boxes) (alloc : Bool) (rcvDhSecret : Bytes 32) (content : List UInt8) :
    Option (List UInt8) :=
  (senderKeyOffset content).bind fun i =>
    let afterKey := content.drop (i + 44)
    if 40 < afterKey.length ∧ alloc then
      decryptClientMsg B afterKey (bytesAt content (i + 12) 32) rcvDhSecret
    else none

/-- The offset of the version: at the last underscore of the first ten characters, else 2. -/
def versionOffset (text : List UInt8) : ℕ :=
  (((List.range 10).filter fun i => i < text.length - 3 ∧ text.getD i 0 = 0x5F).getLast?).getD 2

/-- The URI of a server plaintext that carries an invitation. -/
def plainInvitation (B : Boxes) (alloc : Bool) (env : ParseEnv) (rcvDhSecret : Bytes 32)
    (plain : List UInt8) : Option (List UInt8) :=
  ((clientText B alloc rcvDhSecret (agentContent plain)).filter fun text =>
    6 ≤ text.length ∧ text.getD (versionOffset text + 3) 0 = 0x49).bind (invitationUri env)

end SimpleGo
