import SimpleGo.Agent.Envelope
import SimpleGo.Lib.Logged

/-!
# Opening an envelope, with its reads

`smp_e2e_decrypt_reply_message_ex` takes the server's layer off a message and finds, in the block
that is left, the key of the sender, the nonce and the box of the peer's layer. Here its functions
are written with their reads of the block logged, and with the length of every box they open.
-/

namespace SimpleGo.EnvelopeInput

open Lib Lib.Logged

/-- A difference in `size_t`. -/
def sizeSub (a b : ℕ) : ℕ := (a + 2 ^ 32 - b) % 2 ^ 32

/-- A difference that is none below zero. -/
theorem sizeSub_of_le {a b : ℕ} (hb : b ≤ a) (ha : a < 2 ^ 32) : sizeSub a b = a - b := by
  rw [sizeSub]
  omega

/-- A byte of the server block that is read, or a box that is opened, with the length of its
ciphertext. -/
inductive Access where
  | read (pos : ℕ)
  | boxOpen (cipherLen : ℕ)
  deriving DecidableEq

/-- Reads behind a pointer into the server block. -/
def readsOf {α : Type} (base : ℕ) (x : Logged ℕ α) : Logged Access α :=
  x.mapLog fun pos => .read (base + pos)

@[simp] theorem val_readsOf {α : Type} (base : ℕ) (x : Logged ℕ α) :
    (readsOf base x).val = x.val := rfl

/-- A box is handed to an opening function. -/
def opens (cipherLen : ℕ) : Logged Access Unit := note [.boxOpen cipherLen]

/-! ### The functions, with their accesses -/

/-- The sender key in an SPKI. -/
def spkiSenderKey (envelope : Mem) (off : ℕ) : SenderKey :=
  ⟨windowBytes envelope (off + 12) 32, true, off + 44⟩

/-- An SPKI at an offset, if its header is there. -/
def takeSpki (envelope : Mem) (off : ℕ) : Logged ℕ (Option SenderKey) := do
  let header ← windowAt envelope off 12
  if header = RotationDevice.x25519SpkiHdr then
    let key ← windowBytesAt envelope (off + 12) 32
    return some ⟨key, true, off + 44⟩
  else return none

/-- The search for an SPKI at nearby offsets. -/
def spkiSearch (envelope : Mem) (envelopeLen : ℕ) : List ℕ → Logged ℕ (Option SenderKey)
  | [] => return none
  | tryOff :: rest => do
    if tryOff + 44 ≤ envelopeLen then
      let header ← windowAt envelope tryOff 12
      if header = RotationDevice.x25519SpkiHdr then
        let key ← windowBytesAt envelope (tryOff + 12) 32
        return some ⟨key, true, tryOff + 44⟩
      else spkiSearch envelope envelopeLen rest
    else spkiSearch envelope envelopeLen rest

/-- `extract_sender_key_ex` from its first offset, 12, on. -/
def extractSenderKeyLogged (envelope : Mem) (envelopeLen : ℕ) (cached : Option (Bytes 32)) :
    Logged ℕ (Option SenderKey) := do
  let maybeCorrId ← byteAt envelope 12
  let maybeE2e ← byteAt envelope 13
  if maybeCorrId = 0x31 ∧ (maybeE2e = 0x2C ∨ maybeE2e = 0x30) then
    takeSpki envelope 14
  else if maybeCorrId = 0x31 ∧ maybeE2e = 0x31 then
    let e2eLen ← byteAt envelope 58
    if e2eLen = 44 then takeSpki envelope 59
    else return none
  else if maybeCorrId = 0x2C ∨ maybeCorrId = 0x30 then
    return cached.map fun key => ⟨key, false, 13⟩
  else spkiSearch envelope envelopeLen (List.range' 10 11)

section Decrypt

variable (B : Boxes) (env : EnvelopeEnv) (envelope : Mem) (skipped envelopeLen : ℕ)

/-- Method 0 of `try_e2e_decrypt_ex`: `decrypt_client_msg` on the nonce and the box. -/
def tryClientMsgLogged (nonceOffset : ℕ) (senderPub e2ePrivate : Bytes 32) :
    Logged Access (Option (List UInt8)) :=
  if env.methodAlloc then do
    let blockLen := sizeSub envelopeLen nonceOffset
    let enc ← readsOf skipped (windowAt envelope nonceOffset blockLen)
    opens (blockLen - 24)
    return (decryptClientMsg B enc senderPub e2ePrivate).filter (0 < ·.length)
  else return none

/-- `try_e2e_decrypt_ex`. -/
def tryE2eDecryptLogged (nonceOffset cipherOffset : ℕ) (senderPub e2ePrivate : Bytes 32)
    (cipherLen : ℕ) : Logged Access (Option (List UInt8)) :=
  match B.scalarmult e2ePrivate senderPub with
  | none => return none
  | some dhSecret => do
    match ← tryClientMsgLogged B env envelope skipped envelopeLen nonceOffset senderPub
      e2ePrivate with
    | some plain => return some plain
    | none =>
      let cmNonce ← readsOf skipped (windowBytesAt envelope nonceOffset 24)
      let ciphertext ← readsOf skipped (windowAt envelope cipherOffset cipherLen)
      opens cipherLen
      return B.boxOpen senderPub e2ePrivate cmNonce ciphertext
        <|> B.secretboxOpen dhSecret cmNonce ciphertext
        <|> B.simplexSecretboxOpen dhSecret cmNonce ciphertext

end Decrypt

/-- `prefix_len`: the two bytes of the length are skipped unless both are zero. -/
def prefixLen (buffer : Mem) (plainLen : ℕ) : ℕ :=
  if 2 < plainLen ∧ (buffer 0 ≠ 0 ∨ buffer 1 ≠ 0) then 2 else 0

/-- The E2E layer of `smp_e2e_decrypt_reply_message_ex`. -/
def openE2eLayerLogged (B : Boxes) (env : EnvelopeEnv) (serverPlain : List UInt8)
    (e2ePrivate : Bytes 32) (cached : Option (Bytes 32)) : Logged Access OpenedEnvelope := do
  let buffer := memOf serverPlain env.serverJunk
  let envelopeLen ← readsOf 0 (read16At buffer 0)
  let skipped := prefixLen buffer serverPlain.length
  let envelope : Mem := fun i => buffer (skipped + i)
  -- the bytes for the log
  let _ ← readsOf skipped (windowAt envelope 0 (min 32 envelopeLen))
  match ← readsOf skipped (extractSenderKeyLogged envelope envelopeLen cached) with
  | none => return ⟨none, none⟩
  | some key =>
    let newPeer := if key.isNew then some key.senderPub else none
    if envelopeLen < key.offset + 24 + 16 then return ⟨newPeer, none⟩
    else
      let cipherOffset := key.offset + 24
      let cipherLen := sizeSub envelopeLen cipherOffset
      if env.plainAlloc then
        let text ← tryE2eDecryptLogged B env envelope skipped envelopeLen key.offset cipherOffset
          key.senderPub e2ePrivate cipherLen
        return ⟨newPeer, text.map fun text => (key.senderPub, text)⟩
      else return ⟨newPeer, none⟩

/-- `smp_e2e_decrypt_reply_message_ex`. -/
def smpE2eDecryptReplyMessageLogged (B : Boxes) (env : EnvelopeEnv) (m : EncryptedMsg)
    (sharedSecret e2ePrivate : Bytes 32) (cached : Option (Bytes 32)) :
    Logged Access OpenedEnvelope :=
  if env.serverAlloc then
    match B.boxOpenAfternm sharedSecret m.serverNonce m.encrypted with
    | none => return ⟨none, none⟩
    | some serverPlain => openE2eLayerLogged B env serverPlain e2ePrivate cached
  else return ⟨none, none⟩

/-! ### The logged pipeline is the pipeline -/

/-- The value of the logged test for a key header. -/
theorem takeSpki_val (envelope : Mem) (off : ℕ) : (takeSpki envelope off).val =
    if spkiAt envelope off then some (spkiSenderKey envelope off) else none := by
  rw [takeSpki, val_bind, val_windowAt, val_ite]
  simp only [spkiAt, decide_eq_true_iff]
  rfl

/-- The search stops at the first offset that has an SPKI and room for it. -/
theorem spkiSearch_val (envelope : Mem) (envelopeLen : ℕ) (offs : List ℕ) :
    (spkiSearch envelope envelopeLen offs).val =
      (offs.find? fun off => off + 44 ≤ envelopeLen ∧ spkiAt envelope off).map
        (spkiSenderKey envelope) := by
  induction offs with
  | nil => rfl
  | cons off rest ih =>
    rw [spkiSearch, val_ite, List.find?_cons]
    by_cases hlen : off + 44 ≤ envelopeLen
    · rw [if_pos hlen, val_bind, val_windowAt, val_ite]
      by_cases hspki : window envelope off 12 = RotationDevice.x25519SpkiHdr
      · rw [if_pos hspki, decide_eq_true ⟨hlen, decide_eq_true hspki⟩]
        rfl
      · rw [if_neg hspki, ih, decide_eq_false fun h => hspki (of_decide_eq_true h.2)]
    · rw [if_neg hlen, ih, decide_eq_false fun h => hlen h.1]

/-- The logged extraction has the value of the one without a log. -/
theorem extractSenderKeyLogged_val (envelope : Mem) (envelopeLen : ℕ)
    (cached : Option (Bytes 32)) : (extractSenderKeyLogged envelope envelopeLen cached).val =
      extractSenderKeyEx envelope envelopeLen cached := by
  rw [extractSenderKeyLogged, extractSenderKeyEx, val_bind, val_bind, val_byteAt, val_byteAt,
    val_ite, val_ite, val_ite, val_bind, val_byteAt, val_ite, takeSpki_val, takeSpki_val,
    spkiSearch_val]
  by_cases hlen : envelope 58 = 44
  · simp only [hlen, if_true, true_and]
    rfl
  · simp only [hlen, if_false, false_and]
    rfl

/-- The block of a nonce and a box is that of the nonce, then that of the box. -/
theorem block_split (envelope : Mem) {off envelopeLen : ℕ} (hfits : off + 24 ≤ envelopeLen) :
    bytesAt (window envelope off (envelopeLen - off)) 0 24 = windowBytes envelope off 24 ∧
    (window envelope off (envelopeLen - off)).drop 24 =
      window envelope (off + 24) (envelopeLen - (off + 24)) := by
  have hsplit : envelopeLen - off = 24 + (envelopeLen - (off + 24)) := by omega
  rw [hsplit, window_add]
  constructor
  · apply Vector.ext
    intro i hi
    have hleft : i < (window envelope off 24).length := by rwa [window_length]
    simp only [bytesAt, windowBytes, Vector.getElem_ofFn, Nat.zero_add,
      List.getD_eq_getElem?_getD, List.getElem?_append_left hleft]
    simp [window, hi]
  · rw [List.drop_left' (window_length _ _ _)]

/-- So has the logged attempt to open the box. -/
theorem tryE2eDecryptLogged_val (B : Boxes) (env : EnvelopeEnv) (envelope : Mem)
    (skipped : ℕ) {envelopeLen off : ℕ} (senderPub e2ePrivate : Bytes 32)
    (hfits : off + 24 ≤ envelopeLen) (hlt : envelopeLen < 65536) :
    (tryE2eDecryptLogged B env envelope skipped envelopeLen off (off + 24) senderPub e2ePrivate
      (sizeSub envelopeLen (off + 24))).val =
      tryE2eDecryptEx B env.methodAlloc (window envelope off (envelopeLen - off)) senderPub
        e2ePrivate := by
  obtain ⟨hnonce, hcipher⟩ := block_split envelope hfits
  rw [tryE2eDecryptLogged, tryE2eDecryptEx, hnonce, hcipher]
  cases B.scalarmult e2ePrivate senderPub with
  | none => rfl
  | some dhSecret =>
    have hfirst : (tryClientMsgLogged B env envelope skipped envelopeLen off senderPub
        e2ePrivate).val = if env.methodAlloc then
          (decryptClientMsg B (window envelope off (envelopeLen - off)) senderPub
            e2ePrivate).filter (0 < ·.length) else none := by
      rw [tryClientMsgLogged, val_ite, sizeSub_of_le (by omega) (by omega)]
      rfl
    rw [val_bind, hfirst, Option.bind_some, sizeSub_of_le (by omega) (by omega)]
    generalize (if env.methodAlloc then _ else _ : Option (List UInt8)) = first
    cases first <;> rfl

/-- So has the logged E2E layer. -/
theorem openE2eLayerLogged_val (B : Boxes) (env : EnvelopeEnv) (serverPlain : List UInt8)
    (e2ePrivate : Bytes 32) (cached : Option (Bytes 32)) :
    (openE2eLayerLogged B env serverPlain e2ePrivate cached).val =
      openE2eLayer B env serverPlain e2ePrivate cached := by
  have hlt := read16_lt (memOf serverPlain env.serverJunk) 0
  rw [openE2eLayerLogged, val_bind, val_bind, val_bind, val_readsOf, val_readsOf, val_read16At,
    extractSenderKeyLogged_val]
  unfold openE2eLayer prefixLen
  simp only
  cases extractSenderKeyEx _ _ cached with
  | none => rfl
  | some key =>
    simp only
    generalize (if key.isNew = true then some key.senderPub else none) = newPeer
    by_cases hshort : read16 (memOf serverPlain env.serverJunk) 0 < key.offset + 24 + 16
    · rw [val_ite, if_pos hshort, if_pos (.inl hshort), val_pure]
    · rw [val_ite, if_neg hshort, val_ite]
      cases halloc : env.plainAlloc with
      | false => rw [if_neg Bool.false_ne_true, if_pos (.inr rfl), val_pure]
      | true =>
        rw [if_pos rfl, val_bind, tryE2eDecryptLogged_val B env _ _ _ _ (by omega) hlt, val_pure]
        exact (if_neg (by simpa using hshort)).symm

/-- So has the logged function as a whole. -/
theorem smpE2eDecryptReplyMessageLogged_val (B : Boxes) (env : EnvelopeEnv) (m : EncryptedMsg)
    (sharedSecret e2ePrivate : Bytes 32) (cached : Option (Bytes 32)) :
    (smpE2eDecryptReplyMessageLogged B env m sharedSecret e2ePrivate cached).val =
      smpE2eDecryptReplyMessageEx B env m sharedSecret e2ePrivate cached := by
  rw [smpE2eDecryptReplyMessageLogged, smpE2eDecryptReplyMessageEx]
  cases env.serverAlloc with
  | false => rfl
  | true =>
    cases B.boxOpenAfternm sharedSecret m.serverNonce m.encrypted with
    | none => rfl
    | some serverPlain => exact openE2eLayerLogged_val B env serverPlain e2ePrivate cached

end SimpleGo.EnvelopeInput
