import SimpleGo.Agent.EnvelopeBounds
import SimpleGo.Peer.MessageLength

/-!
# From a sender's envelope to its payload

`encrypt_and_send_agent_msg` and `send_agent_confirmation` box a padded payload for a queue; a
confirmation also carries the public key it is boxed with. The server puts its header and a length
in front. The receiver probes for byte patterns, but only at positions in front of the nonce, so
that no byte of a nonce or of a box is taken for a marker.
-/

namespace SimpleGo.EnvelopeInput

open Lib

/-- `E2E_ENC_CONFIRMATION_LENGTH`. -/
def e2eEncConfirmationLength : ℕ := 15904

/-- The boxes of both sides. -/
structure E2eBoxes extends Boxes, SealFunctions where
  /-- A box is opened with the keys of the other side. -/
  boxOpen_cryptoBoxEasy : ∀ plain nonce priv priv' cipher,
    cryptoBoxEasy plain nonce (boxPublic priv') priv = some cipher →
      boxOpen (boxPublic priv) priv' nonce cipher = some plain
  /-- A box is opened with the result of the DH. -/
  scalarmult_of_boxOpen : ∀ pub priv nonce cipher plain,
    boxOpen pub priv nonce cipher = some plain → (scalarmult priv pub).isSome

/-! ### The sender and the server -/

/-- The two client messages: that of `encrypt_and_send_agent_msg`, without a key, and that of
`send_agent_confirmation`. -/
inductive EnvelopeForm where
  | message
  | confirmation
  deriving DecidableEq

namespace EnvelopeForm

/-- The length a payload is padded to. -/
def paddedLen : EnvelopeForm → ℕ
  | message => e2ePaddedLength
  | confirmation => e2eEncConfirmationLength

/-- The rest of the PubHeader behind the version: no key, or the key the box is made with. -/
def keyField (dhPublic : Bytes 32) : EnvelopeForm → List UInt8
  | message => [0x30]
  | confirmation => 0x31 :: 44 :: (RotationDevice.x25519SpkiHdr ++ dhPublic.toList)

/-- `client_msg`: version 4, the key, the nonce and the box. -/
def clientMsg (dhPublic : Bytes 32) (nonce : Bytes 24) (box : List UInt8) (form : EnvelopeForm) :
    List UInt8 :=
  [0x00, 0x04] ++ (form.keyField dhPublic ++ (nonce.toList ++ box))

/-- The client message of a payload. -/
def build (B : E2eBoxes) (payload : List UInt8) (nonce : Bytes 24)
    (peerDhPublic ourDhPrivate : Bytes 32) (form : EnvelopeForm) : Option (List UInt8) :=
  (B.cryptoBoxEasy (paddedPayload payload form.paddedLen) nonce peerDhPublic ourDhPrivate).map
    fun box => form.clientMsg (B.boxPublic ourDhPrivate) nonce box

/-- Where the nonce of a client message is in the envelope. -/
def nonceOffset : EnvelopeForm → ℕ
  | message => 13
  | confirmation => 58

/-- The key a receiver finds: none but the one it has kept, or that of the sender. -/
def senderKey (dhPublic : Bytes 32) (cached : Option (Bytes 32)) : EnvelopeForm → Option SenderKey
  | message => cached.map fun key => ⟨key, false, 13⟩
  | confirmation => some ⟨dhPublic, true, 58⟩

/-- The key a receiver keeps from a message. -/
def newPeer (dhPublic : Bytes 32) : EnvelopeForm → Option (Bytes 32)
  | message => none
  | confirmation => some dhPublic

end EnvelopeForm

/-- The client message of a transmission is the form without a key. -/
theorem sendCall_clientMsg {K : Type} (call : SendCall K) (dhPublic : Bytes 32)
    (encBuf : List UInt8) :
    call.clientMsg encBuf = EnvelopeForm.message.clientMsg dhPublic call.nonce encBuf := rfl

/-- The server's header of a received message: its time, its flag and a blank. -/
structure ReceivedHeader where
  timestamp : Bytes 8
  flag : UInt8

/-- A header as it is sent. -/
def ReceivedHeader.encode (header : ReceivedHeader) : List UInt8 :=
  header.timestamp.toList ++ [header.flag, 0x20]

/-- The block of a received message: its length, the header, the client message, padding. -/
def serverBlock (header : ReceivedHeader) (clientMsg padding : List UInt8) : List UInt8 :=
  be16 (header.encode ++ clientMsg).length ++ ((header.encode ++ clientMsg) ++ padding)

/-! ### The receiver -/

/-- A block is parsed to a key, a nonce and a box: the length prefix is skipped, the key is the
one that is found, and the nonce and the box lie behind it. -/
structure ParsesTo (plain : List UInt8) (junk : Mem) (cached : Option (Bytes 32))
    (key : Option SenderKey) (offset : ℕ) (nonce : Bytes 24) (box : List UInt8) : Prop where
  prefixLen : prefixLen (memOf plain junk) plain.length = 2
  key : extractSenderKeyEx (fun i => memOf plain junk (2 + i)) (read16 (memOf plain junk) 0)
    cached = key
  length : read16 (memOf plain junk) 0 = offset + 24 + box.length
  nonce : windowBytes (fun i => memOf plain junk (2 + i)) offset 24 = nonce
  box : window (fun i => memOf plain junk (2 + i)) (offset + 24) box.length = box

/-- Memory from an offset on holds what lies there. -/
theorem holds_shift {m : Mem} {base p : ℕ} {l : List UInt8} :
    Holds (fun i => m (base + i)) p l ↔ Holds m (base + p) l := by
  simp only [Holds, window, Nat.add_assoc]

/-- The header in front of a body has ten bytes. -/
theorem ReceivedHeader.encode_length (header : ReceivedHeader) : header.encode.length = 10 := by
  simp only [encode, List.length_append, Vector.length_toList, List.length_cons, List.length_nil]

/-- The key field ends where the nonce begins. -/
theorem EnvelopeForm.keyField_length (dhPublic : Bytes 32) (form : EnvelopeForm) :
    (form.keyField dhPublic).length + 12 = form.nonceOffset := by
  cases form with
  | message => rfl
  | confirmation =>
    simp only [keyField, nonceOffset, List.length_cons, List.length_append, Vector.length_toList]
    rfl

/-- The key of a client message is found by the bytes of its PubHeader alone. -/
theorem EnvelopeForm.extractSenderKeyEx_of_holds {envelope : Mem} {form : EnvelopeForm}
    {dhPublic : Bytes 32} (hheld : Holds envelope 12 (form.keyField dhPublic)) (envelopeLen : ℕ)
    (cached : Option (Bytes 32)) :
    extractSenderKeyEx envelope envelopeLen cached = form.senderKey dhPublic cached := by
  rw [extractSenderKeyEx_layout]
  cases form with
  | message =>
    rw [keyField, holds_cons] at hheld
    rw [hheld.1]
    rfl
  | confirmation =>
    rw [keyField, holds_cons, holds_cons, holds_append] at hheld
    obtain ⟨hcorrId, he2e, hheader, hkey⟩ := hheld
    have hspki : spkiAt envelope 14 = true := decide_eq_true (hheader.window_eq rfl)
    rw [hcorrId, he2e]
    change (if spkiAt envelope 14 = true then some (spkiSenderKey envelope 14) else none) = _
    rw [if_pos hspki, spkiSenderKey, senderKey]
    exact congrArg (fun key => some (SenderKey.mk key true 58)) (windowBytes_of_holds hkey)

/-- A header and a client message, in bytes. -/
theorem receivedMessage_length (header : ReceivedHeader) (form : EnvelopeForm)
    (dhPublic : Bytes 32) (nonce : Bytes 24) (box : List UInt8) :
    (header.encode ++ form.clientMsg dhPublic nonce box).length =
      form.nonceOffset + 24 + box.length := by
  have hkeyField := form.keyField_length dhPublic
  simp only [EnvelopeForm.clientMsg, List.length_append, header.encode_length,
    Vector.length_toList, List.length_cons, List.length_nil]
  omega

/-- Where the parts of a block lie in the memory behind its length prefix. -/
theorem serverBlock_held {buffer : Mem} {header : ReceivedHeader} {form : EnvelopeForm}
    {dhPublic : Bytes 32} {nonce : Bytes 24} {box padding : List UInt8}
    (hheld : Holds buffer 0 (serverBlock header (form.clientMsg dhPublic nonce box) padding)) :
    Holds buffer 0 (be16 (form.nonceOffset + 24 + box.length)) ∧
    Holds (fun i => buffer (2 + i)) 12 (form.keyField dhPublic) ∧
    Holds (fun i => buffer (2 + i)) form.nonceOffset nonce.toList ∧
    Holds (fun i => buffer (2 + i)) (form.nonceOffset + 24) box := by
  have hkeyField := form.keyField_length dhPublic
  rw [serverBlock, receivedMessage_length, holds_append, be16_length, Nat.zero_add,
    ← Nat.add_zero 2, ← holds_shift, holds_append, holds_append, header.encode_length,
    EnvelopeForm.clientMsg, holds_append, holds_append, holds_append] at hheld
  obtain ⟨hfront, ⟨-, -, hkey, hnonce, hbox⟩, -⟩ := hheld
  simp only [List.length_cons, List.length_nil, Nat.zero_add, Nat.reduceAdd,
    Vector.length_toList, Nat.add_comm 12, hkeyField] at hkey hnonce hbox
  exact ⟨hfront, hkey, hnonce, hbox⟩

/-- The block of a client message is parsed to the key, the nonce and the box it was made of. -/
theorem serverBlock_parsesTo (header : ReceivedHeader) (form : EnvelopeForm) (dhPublic : Bytes 32)
    (nonce : Bytes 24) (box padding : List UInt8) (junk : Mem) (cached : Option (Bytes 32))
    (hbox : box.length < 65000) :
    ParsesTo (serverBlock header (form.clientMsg dhPublic nonce box) padding) junk cached
      (form.senderKey dhPublic cached) form.nonceOffset nonce box := by
  have hoffset : form.nonceOffset ≤ 58 := by cases form <;> decide
  obtain ⟨hfront, hkey, hnonce, hcipher⟩ := serverBlock_held (holds_memOf
    (serverBlock header (form.clientMsg dhPublic nonce box) padding) junk)
  have hlength := read16_of_holds hfront (by omega)
  refine ⟨?_, EnvelopeForm.extractSenderKeyEx_of_holds hkey _ _, hlength,
    windowBytes_of_holds hnonce, hcipher⟩
  rw [prefixLen, if_pos]
  constructor
  · have hmessage := receivedMessage_length header form dhPublic nonce box
    rw [serverBlock, List.length_append, be16_length]
    simp only [List.length_append] at hmessage ⊢
    omega
  · -- a length that is not zero has a byte that is not zero
    by_contra hzero
    rw [not_or, not_not, not_not] at hzero
    rw [read16, hzero.1, Nat.zero_add, hzero.2] at hlength
    change 0 = form.nonceOffset + 24 + box.length at hlength
    omega

/-- A box that a method opens is opened by `try_e2e_decrypt_ex`, whichever method it is. -/
theorem tryE2eDecryptEx_of_boxOpen (B : E2eBoxes) (alloc : Bool) {block plain : List UInt8}
    {pub priv : Bytes 32}
    (hopen : B.boxOpen pub priv (bytesAt block 0 24) (block.drop 24) = some plain)
    (hmac : 24 + 16 ≤ block.length) (hplain : 0 < plain.length) :
    tryE2eDecryptEx B.toBoxes alloc block pub priv = some plain := by
  obtain ⟨dhSecret, hdh⟩ := Option.isSome_iff_exists.1
    (B.scalarmult_of_boxOpen _ _ _ _ _ hopen)
  have hclient : decryptClientMsg B.toBoxes block pub priv = some plain := by
    rw [decryptClientMsg, if_neg (by omega), hopen]
  rw [tryE2eDecryptEx, hdh, Option.bind_some]
  cases alloc with
  | false =>
    rw [if_neg Bool.false_ne_true, hopen]
    rfl
  | true =>
    have hfilter : (some plain).filter (0 < ·.length) = some plain := by
      rw [Option.filter_some, if_pos (decide_eq_true hplain)]
    rw [if_pos rfl, hclient, hfilter]
    rfl

/-- What was padded stands behind its length. -/
theorem window_paddedPayload {payload : List UInt8} (paddedLen : ℕ) (junk : Mem)
    (hlen : payload.length < 65536) :
    window (memOf (paddedPayload payload paddedLen) junk) 2
      (read16 (memOf (paddedPayload payload paddedLen) junk) 0) = payload := by
  have hheld := holds_memOf (paddedPayload payload paddedLen) junk
  generalize memOf (paddedPayload payload paddedLen) junk = buffer at hheld ⊢
  rw [paddedPayload, holds_append, holds_append] at hheld
  rw [read16_of_holds hheld.1 hlen]
  exact hheld.2.1

/-- A block that is parsed is opened with the key it is parsed to, when the box is. -/
theorem openE2eLayer_of_parsesTo (B : E2eBoxes) (env : EnvelopeEnv) {plain box text : List UInt8}
    {cached : Option (Bytes 32)} {key : SenderKey} {nonce : Bytes 24} (priv : Bytes 32)
    (hopen : B.boxOpen key.senderPub priv nonce box = some text)
    (hparse : ParsesTo plain env.serverJunk cached (some key) key.offset nonce box)
    (hmac : 16 ≤ box.length) (htext : 0 < text.length) (halloc : env.plainAlloc = true) :
    openE2eLayer B.toBoxes env plain priv cached =
      { newPeer := if key.isNew then some key.senderPub else none
        plain := some (key.senderPub, text) } := by
  obtain ⟨hfront, hfound, hlength, hnonce, hbox⟩ := hparse
  rw [prefixLen] at hfront
  unfold openE2eLayer
  simp only [hfront, hfound]
  have hlong : ¬ (read16 (memOf plain env.serverJunk) 0 < key.offset + 24 + 16 ∨
      (!env.plainAlloc) = true) := by
    rw [halloc, hlength]
    simp only [Bool.not_true, Bool.false_eq_true, or_false]
    omega
  rw [if_neg hlong, hlength]
  have hfits : key.offset + 24 ≤ key.offset + 24 + box.length := Nat.le_add_right _ _
  obtain ⟨hsplitNonce, hsplitBox⟩ :=
    block_split (fun i => memOf plain env.serverJunk (2 + i)) hfits
  rw [Nat.add_sub_cancel_left, hbox] at hsplitBox
  rw [hnonce] at hsplitNonce
  generalize hblock : window (fun i => memOf plain env.serverJunk (2 + i)) key.offset
    (key.offset + 24 + box.length - key.offset) = block at hsplitNonce hsplitBox ⊢
  have hblockLen : 24 + 16 ≤ block.length := by
    rw [← hblock, window_length]
    omega
  rw [← hsplitNonce, ← hsplitBox] at hopen
  rw [tryE2eDecryptEx_of_boxOpen B env.methodAlloc hopen hblockLen htext, Option.map_some]

/-- A payload that is boxed and wrapped is parsed to the key, the nonce and the box it was made
of, and a receiver with the buffers, and with the sender's key where the message has none, gets
the payload. -/
theorem envelope_round_trip (B : E2eBoxes) (header : ReceivedHeader) (form : EnvelopeForm)
    (payload padding clientMsg : List UInt8) (nonce : Bytes 24)
    (senderPrivate recipientPrivate sharedSecret : Bytes 32) (msg : EncryptedMsg)
    (cached : Option (Bytes 32)) (env : EnvelopeEnv)
    (hfits : 2 + payload.length ≤ form.paddedLen)
    (hbuilt : form.build B payload nonce (B.boxPublic recipientPrivate) senderPrivate =
      some clientMsg)
    (hserver : B.boxOpenAfternm sharedSecret msg.serverNonce msg.encrypted =
      some (serverBlock header clientMsg padding)) :
    (∃ box, B.cryptoBoxEasy (paddedPayload payload form.paddedLen) nonce
        (B.boxPublic recipientPrivate) senderPrivate = some box ∧
      ParsesTo (serverBlock header clientMsg padding) env.serverJunk cached
        (form.senderKey (B.boxPublic senderPrivate) cached) form.nonceOffset nonce box) ∧
    (env.serverAlloc = true → env.plainAlloc = true →
      (form = .message → cached = some (B.boxPublic senderPrivate)) →
      ∃ text, smpE2eDecryptReplyMessageEx B.toBoxes env msg sharedSecret recipientPrivate cached =
          { newPeer := form.newPeer (B.boxPublic senderPrivate)
            plain := some (B.boxPublic senderPrivate, text) } ∧
        ∀ junk, window (memOf text junk) 2 (read16 (memOf text junk) 0) = payload) := by
  obtain ⟨box, hbox, rfl⟩ := Option.map_eq_some_iff.1 hbuilt
  have hpadded : form.paddedLen ≤ 16000 := by cases form <;> decide
  have hboxLen := B.cryptoBoxEasy_length _ _ _ _ _ hbox
  have hpayloadLen := paddedPayload_length hfits
  rw [hpayloadLen, cryptoBoxMacBytes] at hboxLen
  have hparse := serverBlock_parsesTo header form (B.boxPublic senderPrivate) nonce box padding
    env.serverJunk cached (by omega)
  refine ⟨⟨box, hbox, hparse⟩, fun hserverAlloc hplainAlloc hcached => ?_⟩
  refine ⟨paddedPayload payload form.paddedLen, ?_,
    fun junk => window_paddedPayload _ junk (by omega)⟩
  have hkey : form.senderKey (B.boxPublic senderPrivate) cached =
      some ⟨B.boxPublic senderPrivate, decide (form = .confirmation), form.nonceOffset⟩ := by
    cases form with
    | message => rw [hcached rfl]; rfl
    | confirmation => rfl
  have hplain := openE2eLayer_of_parsesTo B env recipientPrivate
    (B.boxOpen_cryptoBoxEasy _ _ _ _ _ hbox) (hkey ▸ hparse) (by omega) (by omega) hplainAlloc
  rw [smpE2eDecryptReplyMessageEx, hserverAlloc, hserver]
  refine hplain.trans (congrArg (fun peer => OpenedEnvelope.mk peer _) ?_)
  cases form <;> rfl

/-- A box that shows its key has 16 bytes of it in front. -/
theorem symbolicBox_length (plain : List UInt8) (pub priv : Bytes 32) :
    ((Vector.zipWith (· + ·) priv pub).toList.take 16 ++ plain).length =
      plain.length + cryptoBoxMacBytes := by
  rw [List.length_append, List.length_take, Vector.length_toList, cryptoBoxMacBytes]
  omega

/-- Boxes that show their key, made and opened. -/
def symbolicE2e : E2eBoxes where
  toBoxes := symbolicBoxes
  cryptoBoxEasy plain _ pub priv := some ((Vector.zipWith (· + ·) priv pub).toList.take 16 ++ plain)
  cryptoSignDetached _ _ := zeroBytes 64
  cryptoBoxEasy_length plain _ pub priv cipher h := by
    rw [← Option.some.inj h, symbolicBox_length]
  boxOpen_cryptoBoxEasy plain _ priv priv' cipher h := by
    have hdh : Vector.zipWith (· + ·) priv' priv = Vector.zipWith (· + ·) priv priv' := by
      apply Vector.ext
      intro i hi
      simp only [Vector.getElem_zipWith, UInt8.add_comm]
    rw [← Option.some.inj h]
    change openWith (Vector.zipWith (· + ·) priv' priv)
      ((Vector.zipWith (· + ·) priv priv').toList.take 16 ++ plain) = _
    have hlen : ((Vector.zipWith (· + ·) priv priv').toList.take 16).length = 16 := by
      rw [List.length_take, Vector.length_toList]
      rfl
    rw [hdh, openWith, List.take_left' hlen, List.drop_left' hlen, if_pos rfl]
  scalarmult_of_boxOpen _ _ _ _ _ _ := rfl

/-- A receiver's call for a block, boxed for the zero key. -/
def wrapped (clientMsg : List UInt8) : EncryptedMsg where
  encrypted := List.replicate 16 0 ++
    serverBlock { timestamp := zeroBytes 8, flag := 0x54 } clientMsg [0x23, 0x23]
  msgId := []

/-- A payload comes through in both forms; the nonces and the keys are full of marker bytes. -/
theorem envelope_round_trip_markers :
    (∃ clientMsg text, smpE2eDecryptReplyMessageEx symbolicE2e.toBoxes
        { serverAlloc := true, serverJunk := fun _ => 0, plainAlloc := true, methodAlloc := false }
        (wrapped clientMsg) (zeroBytes 32) (Vector.replicate 32 0x30)
        (some (Vector.replicate 32 0x31)) =
          { newPeer := none, plain := some (Vector.replicate 32 0x31, text) } ∧
      ∀ junk, window (memOf text junk) 2 (read16 (memOf text junk) 0) = [0x31, 0x2C]) ∧
    (∃ clientMsg text, smpE2eDecryptReplyMessageEx symbolicE2e.toBoxes
        { serverAlloc := true, serverJunk := fun _ => 0, plainAlloc := true, methodAlloc := true }
        (wrapped clientMsg) (zeroBytes 32) (Vector.replicate 32 0x30) none =
          { newPeer := some (Vector.replicate 32 0x31)
            plain := some (Vector.replicate 32 0x31, text) } ∧
      ∀ junk, window (memOf text junk) 2 (read16 (memOf text junk) 0) = [0x31, 0x2C]) := by
  constructor
  · exact ⟨_, (envelope_round_trip symbolicE2e { timestamp := zeroBytes 8, flag := 0x54 } .message
      [0x31, 0x2C] [0x23, 0x23] _ (Vector.replicate 24 0x31) (Vector.replicate 32 0x31)
      (Vector.replicate 32 0x30) (zeroBytes 32) (wrapped _) (some (Vector.replicate 32 0x31))
      { serverAlloc := true, serverJunk := fun _ => 0, plainAlloc := true, methodAlloc := false }
      (by decide) rfl rfl).2 rfl rfl fun _ => rfl⟩
  · exact ⟨_, (envelope_round_trip symbolicE2e { timestamp := zeroBytes 8, flag := 0x54 }
      .confirmation [0x31, 0x2C] [0x23, 0x23] _ (Vector.replicate 24 0x31)
      (Vector.replicate 32 0x31) (Vector.replicate 32 0x30) (zeroBytes 32) (wrapped _) none
      { serverAlloc := true, serverJunk := fun _ => 0, plainAlloc := true, methodAlloc := true }
      (by decide) rfl rfl).2 rfl rfl nofun⟩

end SimpleGo.EnvelopeInput
