import SimpleGo.Tasks.ActiveContact

/-!
# The peer keys kept for later messages

A message need not carry the E2E key of its sender; it is then opened with the key kept for its
queue. A reply queue keeps it in its record, the legacy reply queue in a global, and the queues of
the contacts in another one. `smp_e2e_decrypt_reply_message_ex` reports a key as soon as it has
read it from the envelope, and each of its three callers keeps what is reported, before it looks
at the result.
-/

namespace SimpleGo

open Lib

variable {K : Type}

/-! ### One decryption -/

/-- A call of `smp_e2e_decrypt_reply_message_ex`. -/
structure DecryptCall where
  env : EnvelopeEnv
  msg : EncryptedMsg
  sharedSecret : Bytes 32
  e2ePrivate : Bytes 32
  /-- `e2e_peer_public`, where `e2e_peer_valid` is set. -/
  e2ePeer : Option (Bytes 32)

namespace DecryptCall

variable (B : Boxes) (call : DecryptCall)

/-- What the call gives back. -/
def result : OpenedEnvelope :=
  smpE2eDecryptReplyMessageEx B call.env call.msg call.sharedSecret call.e2ePrivate call.e2ePeer

/-- The call does not return 0. -/
def Fails : Prop := (call.result B).plain = none

/-- The sender key that stands in the envelope, once the server layer is opened. -/
def carriedKey : Option (Bytes 32) :=
  if !call.env.serverAlloc then none
  else
    (B.boxOpenAfternm call.sharedSecret call.msg.serverNonce call.msg.encrypted).bind fun plain =>
      let buffer := memOf plain call.env.serverJunk
      let prefixLen := if 2 < plain.length ∧ (buffer 0 ≠ 0 ∨ buffer 1 ≠ 0) then 2 else 0
      (extractSenderKeyEx (fun i => buffer (prefixLen + i)) (read16 buffer 0) none).map (·.senderPub)

end DecryptCall

/-! ### The app task -/

/-- The app task with the keys it keeps for the three kinds of queues. -/
structure PeerKeyTask (K : Type) extends ContactQueueTask K where
  /-- `reply_queue_e2e_peer_public`. -/
  replyQueueE2ePeerPublic : Bytes 32
  /-- `reply_queue_e2e_peer_valid`. -/
  replyQueueE2ePeerValid : Bool
  /-- `s_has_peer_sender_auth`. -/
  hasPeerSenderAuth : Bool

/-- What the environment decides while the reply-queue handler has a message. -/
structure ReplyEnv where
  envelope : EnvelopeEnv
  /-- `reply_queue_save`, and the two writes of `queue_save_credentials`. -/
  rqLands : Bool
  ourLands : Bool
  e2eLands : Bool
  e2eJunk : Mem
  receive : ReceiveDraws
  lands : ℕ → Bool
  /-- The agent finds a sender authentication key in the text. -/
  hasSenderAuth : Bool
  /-- The ring buffer takes the `SEND_KEY`. -/
  keyQueued : Bool
  /-- The HELLO, and how many of its calls are made. -/
  hello : SendData
  helloCalls : ℕ

/-- A MSG, with what the environment decides in each of the handlers. -/
structure ReceivedMsg where
  onReply : ReplyEnv
  onContact : QueueMsg

/-- The message for the reply-queue handler. -/
def ReceivedMsg.replyMsg (m : ReceivedMsg) : QueueMsg :=
  { m.onContact with
    envelope := m.onReply.envelope
    e2eJunk := m.onReply.e2eJunk
    receive := m.onReply.receive
    lands := m.onReply.lands }

/-- The queues whose id a MSG names: the contact of a reply queue, which may be the legacy one,
and the contact of a contact queue. -/
structure MsgQueues where
  reply : Option (ℕ × Bool)
  contact : Option ℕ

/-- The calls of the app task for one contact, up to one that cannot go on. -/
def SwitchTasks.performAll (P : Primitives K) (s : SwitchTasks K) :
    List ContactCall → SwitchTasks K
  | [] => s
  | call :: calls =>
    let out := s.perform P call
    if out.2 then out.1.performAll P calls else out.1

namespace ContactQueueTask

variable (P : Primitives K) (B : Boxes) (s : ContactQueueTask K)

/-- `our_queue.shared_secret`. -/
def sharedSecret : Bytes 32 := (s.dev.ourQueue.map (·.sharedSecret)).getD (zeroBytes 32)

/-- `peer_send_hello` for a contact. -/
def peerSendHello (idx : ℕ) (hello : SendData) (calls : ℕ) : ContactQueueTask K :=
  let tasks : SwitchTasks K :=
    { dev := s.dev
      pendingPeer := s.pendingPeer
      peerOf := fun _ => False
      activeContact := idx
      handled := idx
      appCalls := []
      uiCalls := [] }
  let out := tasks.performAll P (hello.calls.take calls)
  { s with dev := out.dev, pendingPeer := out.pendingPeer }

/-- The call for a MSG on the queue of contact `c`, if its handler comes to it. -/
def contactCall (c : ℕ) (m : QueueMsg) : Option DecryptCall :=
  if (s.dev.contacts c).haveSrvDh = 0 ∨ m.msg.encrypted.length ≤ 16 then none
  else if s.quseSent c ∨ !s.done42d c then none
  else
    let t := s.select c
    (B.beforenm (t.dev.contacts c).srvDhPublic (t.dev.contacts c).rcvDhSecret).map fun shared =>
      ⟨m.envelope, m.msg, shared, t.e2ePrivate, t.cqE2ePeer <|> t.rotationCqPeer⟩

end ContactQueueTask

namespace PeerKeyTask

variable (P : Primitives K) (B : Boxes) (s : PeerKeyTask K) (idx : ℕ) (m : ReceivedMsg)

/-- The task after the functions that know nothing of the reply queues' keys. -/
def withTask (t : ContactQueueTask K) : PeerKeyTask K := { s with toContactQueueTask := t }

/-- The reply queue of the contact is used, and not `our_queue`. -/
def usesOwnQueue (legacy : Bool) : Bool :=
  !legacy && decide (idx < maxContacts) && (s.dev.replyQueues idx).valid

/-- The call with the keys of the contact's reply queue. -/
def ownCall : DecryptCall :=
  let rq := s.dev.replyQueues idx
  ⟨m.onReply.envelope, m.onContact.msg, rq.sharedSecret, rq.e2ePrivate,
    if rq.e2ePeerValid then some rq.e2ePeerPublic else none⟩

/-- The call with the keys of `our_queue`. -/
def legacyCall : DecryptCall :=
  ⟨m.onReply.envelope, m.onContact.msg, s.sharedSecret, s.e2ePrivate,
    if s.replyQueueE2ePeerValid then some s.replyQueueE2ePeerPublic else none⟩

/-- The record of a reply queue with a key of the peer. -/
def keyedQueue (key : Bytes 32) : ReplyQueue :=
  { s.dev.replyQueues idx with e2ePeerPublic := key, e2ePeerValid := true }

/-- A key is kept for the contact's reply queue. -/
def keepReplyKey (lands : Bool) (key : Bytes 32) : PeerKeyTask K :=
  s.withTask { s.toContactQueueTask with
    dev := { s.dev with
      replyQueues := Function.update s.dev.replyQueues idx (s.keyedQueue idx key) }.replyQueueSave
        idx lands }

/-- The blob of `queue_e2e`: the key, and a byte for its flag. -/
def queueE2eBlob (key : Bytes 32) (valid : Bool) : Blob K :=
  .bytes (key.toList ++ [if valid then 1 else 0])

/-- `queue_save_credentials`. -/
def queueSaveCredentials (ourLands e2eLands : Bool) : PeerKeyTask K :=
  match s.dev.ourQueue with
  | none => s
  | some q =>
    if !q.valid || !ourLands then s
    else
      let nvs := s.dev.nvs.put "queue_our" (.ourQueue q)
      s.withTask { s.toContactQueueTask with
        dev := { s.dev with
          nvs := if e2eLands then
              nvs.put "queue_e2e" (queueE2eBlob s.replyQueueE2ePeerPublic s.replyQueueE2ePeerValid)
            else nvs } }

/-- A key is kept for the legacy reply queue. -/
def keepLegacyKey (key : Bytes 32) : PeerKeyTask K :=
  { s with
    replyQueueE2ePeerPublic := key
    replyQueueE2ePeerValid := true }.queueSaveCredentials m.onReply.ourLands m.onReply.e2eLands

/-- The decryption with the contact's reply queue. -/
def decryptOwn : PeerKeyTask K × Option (Bytes 32 × List UInt8) :=
  let out := (s.ownCall idx m).result B
  ((out.newPeer.map (s.keepReplyKey idx m.onReply.rqLands)).getD s, out.plain)

/-- `smp_e2e_decrypt_reply_message`. -/
def smpE2eDecryptReplyMessage : PeerKeyTask K × Option (Bytes 32 × List UInt8) :=
  let out := (s.legacyCall m).result B
  ((out.newPeer.map (s.keepLegacyKey m)).getD s, out.plain)

/-- The agent is given a text from the reply queue. -/
def agentProcess (text : List UInt8) : PeerKeyTask K :=
  { s.withTask ((s.select idx).smpAgentProcessMessage P m.replyMsg text) with
    hasPeerSenderAuth := s.hasPeerSenderAuth || m.onReply.hasSenderAuth }

/-- The block after a confirmation: the KEY is queued and the HELLO sent. -/
def postConfirmation : PeerKeyTask K :=
  if !s.hasPeerSenderAuth || s.done42d idx then s
  else
    let t := { s.select idx with done42d := Function.update s.done42d idx true }
    if !m.onReply.keyQueued then s.withTask t
    else
      { s.withTask (t.peerSendHello P idx m.onReply.hello m.onReply.helloCalls) with
        hasPeerSenderAuth := false }

/-- `app_handle_reply_queue_msg`. -/
def appHandleReplyQueueMsg (legacy : Bool) : PeerKeyTask K :=
  let out := if s.usesOwnQueue idx legacy then s.decryptOwn B idx m
    else s.smpE2eDecryptReplyMessage B m
  match out.2 with
  | some (_, text) => (out.1.agentProcess P idx m text).postConfirmation P idx m
  | none => out.1.postConfirmation P idx m

/-- The state when the reply-queue handler is done with the message, if it gets it. -/
def afterReply (queues : MsgQueues) : PeerKeyTask K :=
  match queues.reply with
  | some (idx, legacy) =>
    if 16 < m.onContact.msg.encrypted.length then s.appHandleReplyQueueMsg P B idx m legacy else s
  | none => s

/-- What `smp_app_run` does with a MSG on these queues. -/
def handleMsg (queues : MsgQueues) : PeerKeyTask K :=
  let s := s.afterReply P B m queues
  match queues.contact with
  | some c => s.withTask (s.appHandleContactQueueMsg P B c m.onContact)
  | none => s

end PeerKeyTask

/-! ### The kept keys -/

/-- The queues for which a peer key is kept. -/
inductive PeerKeyQueue where
  | replyQueue (idx : ℕ)
  | legacy
  | contactQueue
  deriving DecidableEq

namespace PeerKeyTask

variable (P : Primitives K) (B : Boxes) (s : PeerKeyTask K) (m : ReceivedMsg)

/-- The key kept in RAM, and its flag. -/
def keptKey : PeerKeyQueue → Bytes 32 × Bool
  | .replyQueue idx => ((s.dev.replyQueues idx).e2ePeerPublic, (s.dev.replyQueues idx).e2ePeerValid)
  | .legacy => (s.replyQueueE2ePeerPublic, s.replyQueueE2ePeerValid)
  | .contactQueue => (s.cqE2ePeer.getD (zeroBytes 32), s.cqE2ePeer.isSome)

/-- The blob in NVS that holds the key. -/
def storedKey : PeerKeyQueue → Option (Blob K)
  | .replyQueue idx => s.dev.nvs (rqKey idx)
  | .legacy => s.dev.nvs "queue_e2e"
  | .contactQueue => s.dev.nvs "cq_e2e_peer"

/-- The decryption of a message for which the key of a queue is used. -/
def decryptCall (queues : MsgQueues) : PeerKeyQueue → Option DecryptCall
  | .replyQueue idx =>
    if queues.reply = some (idx, false) ∧ 16 < m.onContact.msg.encrypted.length ∧
        s.usesOwnQueue idx false then some (s.ownCall idx m)
    else none
  | .legacy =>
    queues.reply.bind fun reply =>
      if 16 < m.onContact.msg.encrypted.length ∧ !s.usesOwnQueue reply.1 reply.2 then
        some (s.legacyCall m)
      else none
  | .contactQueue =>
    queues.contact.bind fun c => (s.afterReply P B m queues).contactCall B c m.onContact

/-- A decryption that fails leaves the key of its queue, in RAM and in NVS. -/
def KeepsKeyOnFailure (queues : MsgQueues) : Prop :=
  ∀ q, ∀ call ∈ s.decryptCall P B m queues q, call.Fails B →
    (s.handleMsg P B m queues).keptKey q = s.keptKey q ∧
      (s.handleMsg P B m queues).storedKey q = s.storedKey q

/-- The blob with the key of a queue, after a key was taken from a message. -/
def storedWith (key : Bytes 32) : PeerKeyQueue → Option (Blob K)
  | .replyQueue idx =>
    if m.onReply.rqLands then some (.replyQueue (s.keyedQueue idx key))
    else s.storedKey (.replyQueue idx)
  | .legacy =>
    if s.dev.ourQueue.any (·.valid) ∧ m.onReply.ourLands ∧ m.onReply.e2eLands then
      some (queueE2eBlob key true)
    else s.storedKey .legacy
  | .contactQueue => s.storedKey .contactQueue

/-- The key of the rotation fills in for one the contact queues do not have. -/
def FilledByRotation (s' : PeerKeyTask K) (q : PeerKeyQueue) : Prop :=
  q = .contactQueue ∧ s.cqE2ePeer = none ∧
    ∃ key, s.rotationCqPeer = some key ∧ s'.keptKey q = (key, true)

/-- What a decryption that fails does to the key of its queue. A key in the envelope becomes the
kept one; without one the key stays. -/
def KeyFollowsEnvelope (queues : MsgQueues) : Prop :=
  ∀ q, ∀ call ∈ s.decryptCall P B m queues q, call.Fails B →
    match call.carriedKey B with
    | none =>
      (s.handleMsg P B m queues).storedKey q = s.storedKey q ∧
        ((s.handleMsg P B m queues).keptKey q = s.keptKey q ∨
          s.FilledByRotation (s.handleMsg P B m queues) q)
    | some key =>
      (s.handleMsg P B m queues).keptKey q = (key, true) ∧
        (s.handleMsg P B m queues).storedKey q = s.storedWith m key q

end PeerKeyTask

/-! ### What leaves the kept keys alone -/

/-- The NVS keys of the ratchets, the peer queues and the handshakes. -/
def sessionFamilies : List (List Char) :=
  [['r', 'a', 't'], ['p', 'q', '_'], ['p', 'e', 'e'], ['h', 'a', 'n']]

/-- The queues in RAM are as before, and NVS outside the keys of the sessions. -/
structure KeepsQueues (dev dev' : ContactDevice K) : Prop where
  replyQueues : dev'.replyQueues = dev.replyQueues
  ourQueue : dev'.ourQueue = dev.ourQueue
  nvs : ∀ key, keyFamily key ∉ sessionFamilies → dev'.nvs key = dev.nvs key

/-- A device keeps its own queues. -/
theorem KeepsQueues.refl (dev : ContactDevice K) : KeepsQueues dev dev := ⟨rfl, rfl, fun _ _ => rfl⟩

/-- What two steps keep, both together keep. -/
theorem KeepsQueues.trans {dev dev' dev'' : ContactDevice K} (h : KeepsQueues dev dev')
    (h' : KeepsQueues dev' dev'') : KeepsQueues dev dev'' :=
  ⟨h'.replyQueues.trans h.replyQueues, h'.ourQueue.trans h.ourQueue,
    fun key hkey => (h'.nvs key hkey).trans (h.nvs key hkey)⟩

/-- Writes for the sessions leave the other keys. -/
theorem putAll_session {nvs : Nvs K} {writes : List (NvsWrite K)} (lands : ℕ → Bool)
    (h : ∀ w ∈ writes, keyFamily w.1 ∈ sessionFamilies) {key : String}
    (hkey : keyFamily key ∉ sessionFamilies) :
    nvs.putAll (Store.landed lands writes) key = nvs key := by
  apply Store.putAll_of_forall_ne
  rintro w hw rfl
  exact hkey (h w ((Store.landed_sublist ..).subset hw))

/-- A write for a session leaves the other keys. -/
theorem put_session {nvs : Nvs K} {written : String} (blob : Blob K)
    (h : keyFamily written ∈ sessionFamilies) {key : String}
    (hkey : keyFamily key ∉ sessionFamilies) : nvs.put written blob key = nvs key :=
  Store.put_of_ne _ _ fun heq => hkey (heq ▸ h)

/-- A session write is under a key of the ratchets. -/
theorem IsSessionWrite.family {idx : ℕ} {w : NvsWrite K} (h : IsSessionWrite idx w) :
    keyFamily w.1 ∈ sessionFamilies := by
  rcases h.2 with hkey | ⟨field, -, hkey⟩
  · simp [hkey, sessionFamilies]
  · simp [hkey, sessionFamilies]

/-- So are the writes while a message is received. -/
theorem ratchetDecryptMessage_family (P : Primitives K) (idx : ℕ) (enabled : Bool)
    (draws : ReceiveDraws) (recvPq : Option ParsedMsgHeader) (st : RatchetState K)
    (erm : ClientMessage) : ∀ w ∈ (ratchetDecryptMessage P idx enabled draws recvPq st erm).writes,
      keyFamily w.1 ∈ sessionFamilies := by
  intro w hw
  rcases ratchetDecryptMessage_cases P idx enabled draws recvPq st erm with
    ⟨hnone, -⟩ | ⟨mode, opened, peerDh, pn, ns, -, -, heq⟩
  · obtain ⟨field, hfield⟩ :=
      (ratchetDecryptMessage_rejected P idx enabled draws recvPq st erm hnone).2 w hw
    simp [hfield, sessionFamilies]
  · rw [heq] at hw
    have hcall : w ∈ (RatchetCall.decrypt enabled draws.body _ _).writes P idx st := hw
    exact (isSessionWrite_of_call hcall).family

/-- Selecting a ratchet leaves the queues. -/
theorem ratchetSetActive_queues (dev : ContactDevice K) (idx : ℕ) :
    KeepsQueues dev (dev.ratchetSetActive idx) := by
  rw [ContactDevice.ratchetSetActive]
  by_cases hidx : maxContacts ≤ idx
  · rw [if_pos hidx]
    exact .refl dev
  · rw [if_neg hidx]
    dsimp only
    by_cases hinit : (dev.putBack idx).initialized = true
    · rw [if_pos hinit]
      exact ⟨rfl, rfl, fun _ _ => rfl⟩
    · rw [if_neg hinit]
      cases ratchetReload dev.nvs idx <;> exact ⟨rfl, rfl, fun _ _ => rfl⟩

/-- Saving the active handshake entry leaves the queues. -/
theorem handshakeSaveState_queues (dev : ContactDevice K) : KeepsQueues dev dev.handshakeSaveState :=
  ⟨rfl, rfl, fun _ hkey => put_session _ (by simp [sessionFamilies]) hkey⟩

/-- Selecting a handshake entry leaves the queues. -/
theorem handshakeSetActive_queues (dev : ContactDevice K) (idx : ℕ) :
    KeepsQueues dev (dev.handshakeSetActive idx) := by
  rw [ContactDevice.handshakeSetActive]
  by_cases hidx : maxContacts ≤ idx
  · rw [if_pos hidx]
    exact .refl dev
  · rw [if_neg hidx]
    dsimp only
    have hsaved : KeepsQueues dev (if dev.activeHandshakeIdx ≠ idx then dev.handshakeSaveState
        else dev) := by
      by_cases hactive : dev.activeHandshakeIdx ≠ idx
      · rw [if_pos hactive]
        exact handshakeSaveState_queues dev
      · rw [if_neg hactive]
        exact .refl dev
    rw [ContactDevice.handshakeLoadState]
    dsimp only
    cases ContactDevice.storedHandshake (if dev.activeHandshakeIdx ≠ idx then dev.handshakeSaveState
        else dev).nvs idx <;> exact ⟨hsaved.replyQueues, hsaved.ourQueue, hsaved.nvs⟩

/-- `reply_queue_save` writes the record in RAM under its own key. -/
theorem replyQueueSave_spec (dev : ContactDevice K) (slot : ℕ) (lands : Bool) :
    (dev.replyQueueSave slot lands).replyQueues = dev.replyQueues ∧
      (slot < maxContacts ∧ (dev.replyQueues slot).valid = true →
        (dev.replyQueueSave slot lands).nvs (rqKey slot) =
          if lands then some (.replyQueue (dev.replyQueues slot)) else dev.nvs (rqKey slot)) ∧
      ∀ key, key ≠ rqKey slot → (dev.replyQueueSave slot lands).nvs key = dev.nvs key := by
  rw [ContactDevice.replyQueueSave]
  split_ifs with hsave hlands hlands
  · exact ⟨rfl, fun _ => Store.put_self .., fun _ hkey => Store.put_of_ne _ _ hkey⟩
  · exact absurd hsave.2.2 hlands
  · exact ⟨rfl, fun hvalid => absurd ⟨hvalid.1, hvalid.2, hlands⟩ hsave, fun _ _ => rfl⟩
  · exact ⟨rfl, fun _ => rfl, fun _ _ => rfl⟩

/-- An operation on the active session leaves the queues. -/
theorem storeStep_queues (P : Primitives K) (dev : ContactDevice K) (op : SessionOp)
    (lands : ℕ → Bool) : KeepsQueues dev (dev.storeStep P (.session op lands)) := by
  refine ⟨rfl, rfl, fun key hkey => putAll_session lands (fun w hw => ?_) hkey⟩
  obtain ⟨idx, -, hwrite⟩ := op.isSessionWrite hw
  exact hwrite.family

/-- A call of the app task for a contact leaves the queues. -/
theorem SwitchTasks.perform_queues (P : Primitives K) (s : SwitchTasks K) (call : ContactCall) :
    KeepsQueues s.dev (s.perform P call).1.dev := by
  cases call with
  | ratchetSetActive => exact ratchetSetActive_queues s.dev s.handled
  | handshakeSetActive => exact handshakeSetActive_queues s.dev s.handled
  | peerLoadState =>
    rw [perform]
    cases ContactDevice.peerLoadState s.dev.nvs s.handled with
    | none => exact .refl s.dev
    | some p =>
      dsimp only
      split_ifs <;> exact .refl s.dev
  | ratchet call lands => exact storeStep_queues P s.dev _ lands
  | x3dhSender ourKey1 ourKey2 => exact storeStep_queues P s.dev _ _
  | initSender ourKey2 lands => exact storeStep_queues P s.dev _ lands
  | setPrevMsgHash hash lands =>
    simp only [perform]
    rw [saveHandshake]
    split_ifs
    · have hsaved := handshakeSaveState_queues
        (s.changeHandshake fun e => { e with prevMsgHash := hash }).dev
      exact ⟨hsaved.replyQueues, hsaved.ourQueue, hsaved.nvs⟩
    · exact ⟨rfl, rfl, fun _ _ => rfl⟩
  | peerSaveState lands =>
    simp only [perform]
    split_ifs
    · exact ⟨rfl, rfl, fun _ hkey => put_session _ (by simp [sessionFamilies]) hkey⟩
    · exact .refl s.dev
  | _ => exact ⟨rfl, rfl, fun _ _ => rfl⟩

/-- So do its calls one after the other. -/
theorem SwitchTasks.performAll_queues (P : Primitives K) (calls : List ContactCall)
    (s : SwitchTasks K) : KeepsQueues s.dev (s.performAll P calls).dev := by
  induction calls generalizing s with
  | nil => exact .refl s.dev
  | cons call calls ih =>
    rw [performAll]
    have hcall := s.perform_queues P call
    split_ifs
    · exact hcall.trans (ih _)
    · exact hcall

namespace ContactQueueTask

/-- The keys kept for the queues are as before. -/
structure KeepsKeys (s s' : ContactQueueTask K) : Prop where
  queues : KeepsQueues s.dev s'.dev
  cqE2ePeer : s'.cqE2ePeer = s.cqE2ePeer
  rotationCqPeer : s'.rotationCqPeer = s.rotationCqPeer

/-- A state keeps its own keys. -/
theorem KeepsKeys.refl (s : ContactQueueTask K) : KeepsKeys s s := ⟨.refl s.dev, rfl, rfl⟩

/-- What two steps keep, both together keep. -/
theorem KeepsKeys.trans {s s' s'' : ContactQueueTask K} (h : KeepsKeys s s')
    (h' : KeepsKeys s' s'') : KeepsKeys s s'' :=
  ⟨h.queues.trans h'.queues, h'.cqE2ePeer.trans h.cqE2ePeer,
    h'.rotationCqPeer.trans h.rotationCqPeer⟩

variable (P : Primitives K) (B : Boxes) (s : ContactQueueTask K)

/-- The selection of a contact. -/
theorem select_keys (c : ℕ) : KeepsKeys s (s.select c) :=
  ⟨(ratchetSetActive_queues s.dev c).trans (handshakeSetActive_queues _ c), rfl, rfl⟩

/-- A text for the agent. -/
theorem smpAgentProcessMessage_keys (m : QueueMsg) (text : List UInt8) :
    KeepsKeys s (s.smpAgentProcessMessage P m text) := by
  rw [smpAgentProcessMessage]
  cases ermOf (memOf text m.e2eJunk) text.length s.dev.ratchetState.initialized with
  | none => exact .refl s
  | some erm =>
    refine ⟨⟨rfl, rfl, fun key hkey => ?_⟩, rfl, rfl⟩
    exact putAll_session m.lands (ratchetDecryptMessage_family P _ _ _ _ _ erm) hkey

/-- The HELLO. -/
theorem peerSendHello_keys (idx : ℕ) (hello : SendData) (calls : ℕ) :
    KeepsKeys s (s.peerSendHello P idx hello calls) :=
  ⟨SwitchTasks.performAll_queues P (hello.calls.take calls)
    ⟨s.dev, s.pendingPeer, fun _ => False, idx, idx, [], []⟩, rfl, rfl⟩

/-- A confirmation. -/
theorem confirmWithKeys_keys (idx : ℕ) (env : ConfirmEnv) (lands : ℕ → Bool) (info : List UInt8)
    (key1 key2 : X448KeyPair) : KeepsKeys s (s.confirmWithKeys P idx env lands info key1 key2) := by
  have hsaved : ∀ st : RatchetState K, ∀ w ∈ ratchetSaveState s.dev.activeRatchetIdx st,
      keyFamily w.1 ∈ sessionFamilies :=
    fun st w hw => (isSessionWrite_of_ratchetSaveState hw).family
  rw [confirmWithKeys]
  dsimp only
  cases ratchetX3dhSender P s.pendingPeer.e2eKey1 s.pendingPeer.e2eKey2 key1 key2
      s.dev.ratchetState with
  | none => exact .refl s
  | some st =>
    dsimp only
    rcases ratchetInitSender P s.pendingPeer.e2eKey2 key2 st with ⟨_ | _, st'⟩
    · exact ⟨⟨rfl, rfl, fun _ _ => rfl⟩, rfl, rfl⟩
    · dsimp only
      have hwrites : ∀ w ∈ ratchetSaveState s.dev.activeRatchetIdx st' ++
          (ratchetEncrypt P s.dev.activeRatchetIdx s.pqEnabled env.encCleanup st'
            (info ++ env.connInfo) 14832).writes, keyFamily w.1 ∈ sessionFamilies := by
        intro w hw
        rcases List.mem_append.1 hw with hw | hw
        · exact hsaved st' w hw
        · have hcall : w ∈ (RatchetCall.encrypt s.pqEnabled env.encCleanup _ _).writes P
              s.dev.activeRatchetIdx st' := hw
          exact (isSessionWrite_of_call hcall).family
      split_ifs
      · exact ⟨⟨rfl, rfl, fun key hkey => putAll_session lands (hsaved st') hkey⟩, rfl, rfl⟩
      · refine ⟨⟨rfl, rfl, fun key hkey => ?_⟩, rfl, rfl⟩
        exact (put_session _ (by simp [sessionFamilies]) hkey).trans
          (putAll_session lands hwrites hkey)
      · exact ⟨⟨rfl, rfl, fun key hkey => putAll_session lands hwrites hkey⟩, rfl, rfl⟩

/-- A confirmation for a connected peer. -/
theorem sendAgentConfirmation_keys (c : ℕ) (env : ConfirmEnv) (lands : ℕ → Bool) :
    KeepsKeys s (s.sendAgentConfirmation P c env lands) := by
  rw [sendAgentConfirmation]
  cases env.queueInfo with
  | none => split_ifs <;> exact .refl s
  | some info =>
    cases env.keys with
    | none => split_ifs <;> exact .refl s
    | some keys =>
      dsimp only
      have hselect := s.select_keys (s.confirmationSlot c)
      split_ifs
      · exact .refl s
      · exact .refl s
      · exact hselect
      · exact hselect.trans (confirmWithKeys_keys P _ _ _ _ _ _ _)

/-- A message that is not opened as to its E2E layer. -/
theorem fallback_keys (c : ℕ) (m : QueueMsg) : KeepsKeys s (s.fallback P B c m) := by
  rw [fallback]
  cases s.fallbackInvitation B c m with
  | none => exact .refl s
  | some uri =>
    dsimp only
    rw [takeInvitation]
    dsimp only
    split_ifs
    · have hactive : KeepsKeys s { s with
          pendingPeer := s.pendingPeer.parseUri m.parse.stack uri
          dev := s.dev.ratchetSetActive c } := ⟨ratchetSetActive_queues s.dev c, rfl, rfl⟩
      exact hactive.trans (sendAgentConfirmation_keys P _ c m.confirm m.lands)
    · exact ⟨.refl s.dev, rfl, rfl⟩

/-- A message on the queue of a contact leaves the keys of the reply queues. -/
theorem appHandleContactQueueMsg_queues (c : ℕ) (m : QueueMsg) :
    KeepsQueues s.dev (s.appHandleContactQueueMsg P B c m).dev := by
  have hselect := (s.select_keys c).queues
  rw [appHandleContactQueueMsg]
  split_ifs
  · exact .refl s.dev
  · rw [handleSelected]
    split_ifs
    · exact hselect
    · dsimp only
      cases ((s.select c).openEnvelope B c m).plain with
      | none =>
        exact hselect.trans
          (fallback_keys P B ((s.select c).learnSenderKey ((s.select c).openEnvelope B c m))
            c m).queues
      | some opened =>
        exact hselect.trans
          (smpAgentProcessMessage_keys P
            ((s.select c).learnSenderKey ((s.select c).openEnvelope B c m)) m opened.2).queues
    · exact hselect.trans (fallback_keys P B (s.select c) c m).queues

/-- Where the E2E layer is tried and does not open, the contact queues keep the key of the
envelope, else their own, else that of the rotation. -/
theorem appHandleContactQueueMsg_failed {c : ℕ} {m : QueueMsg} {call : DecryptCall}
    (hcall : s.contactCall B c m = some call) (hfails : call.Fails B) :
    (s.appHandleContactQueueMsg P B c m).cqE2ePeer =
      ((call.result B).newPeer <|> s.cqE2ePeer <|> s.rotationCqPeer) := by
  rw [contactCall] at hcall
  rw [appHandleContactQueueMsg]
  split_ifs at hcall ⊢ with hshort hearly
  obtain ⟨hquse, hdone⟩ := not_or.1 hearly
  obtain ⟨shared, hshared, rfl⟩ := Option.map_eq_some_iff.1 hcall
  have hopened : (s.select c).openEnvelope B c m =
      DecryptCall.result B ⟨m.envelope, m.msg, shared, (s.select c).e2ePrivate,
        (s.select c).cqE2ePeer <|> (s.select c).rotationCqPeer⟩ := by
    rw [openEnvelope, hshared]
    rfl
  have hnone : ((s.select c).openEnvelope B c m).plain = none := by rwa [hopened]
  have hdone' : s.done42d c = true := by simpa using hdone
  rw [handleSelected, if_neg (show ¬ (s.select c).quseSent c = true from hquse),
    if_pos (show (s.select c).done42d c = true from hdone')]
  dsimp only
  rw [hnone]
  dsimp only
  rw [(fallback_keys P B _ c m).cqE2ePeer, learnSenderKey, hopened]
  rfl

end ContactQueueTask

/-! ### The key in an envelope -/

/-- A key is found in an envelope whatever key is kept. -/
theorem extractSenderKeyEx_new (envelope : Mem) (envelopeLen : ℕ) (cached : Option (Bytes 32)) :
    (extractSenderKeyEx envelope envelopeLen none).map (·.senderPub) =
      (extractSenderKeyEx envelope envelopeLen cached).bind fun key =>
        if key.isNew then some key.senderPub else none := by
  rw [extractSenderKeyEx, extractSenderKeyEx]
  split_ifs
  · rfl
  · rfl
  · rfl
  · rfl
  · cases cached <;> rfl
  · cases (List.range' 10 11).find? fun tryOff =>
      decide (tryOff + 44 ≤ envelopeLen ∧ spkiAt envelope tryOff) <;> rfl

/-- The key that is reported is the one in the envelope. -/
theorem DecryptCall.newPeer_eq (B : Boxes) (call : DecryptCall) :
    (call.result B).newPeer = call.carriedKey B := by
  rw [result, smpE2eDecryptReplyMessageEx, carriedKey]
  by_cases halloc : (!call.env.serverAlloc) = true
  · rw [if_pos halloc, if_pos halloc]
  · rw [if_neg halloc, if_neg halloc]
    cases B.boxOpenAfternm call.sharedSecret call.msg.serverNonce call.msg.encrypted with
    | none => rfl
    | some plain =>
      rw [Option.bind_some]
      dsimp only
      rw [extractSenderKeyEx_new _ _ call.e2ePeer, openE2eLayer]
      dsimp only
      cases extractSenderKeyEx _ _ call.e2ePeer with
      | none => rfl
      | some key =>
        dsimp only
        rw [Option.bind_some]
        split_ifs <;> rfl

/-! ### A decryption that fails -/

namespace PeerKeyTask

variable (P : Primitives K) (B : Boxes) (s : PeerKeyTask K) (idx : ℕ) (m : ReceivedMsg)

/-- The keys of the reply queues are as before. -/
structure KeepsReplyKeys (s s' : PeerKeyTask K) : Prop where
  queues : KeepsQueues s.dev s'.dev
  legacyKey : s'.replyQueueE2ePeerPublic = s.replyQueueE2ePeerPublic
  legacyFlag : s'.replyQueueE2ePeerValid = s.replyQueueE2ePeerValid

/-- What two steps keep, both together keep. -/
theorem KeepsReplyKeys.trans {s s' s'' : PeerKeyTask K} (h : KeepsReplyKeys s s')
    (h' : KeepsReplyKeys s' s'') : KeepsReplyKeys s s'' :=
  ⟨h.queues.trans h'.queues, h'.legacyKey.trans h.legacyKey, h'.legacyFlag.trans h.legacyFlag⟩

/-- Then what is kept for a reply queue is the same in RAM and in NVS. -/
theorem KeepsReplyKeys.kept {s s' : PeerKeyTask K} (h : KeepsReplyKeys s s') {q : PeerKeyQueue}
    (hq : q ≠ .contactQueue) :
    s'.keptKey q = s.keptKey q ∧ s'.storedKey q = s.storedKey q := by
  cases q with
  | replyQueue idx =>
    refine ⟨?_, h.queues.nvs _ (by simp [sessionFamilies])⟩
    rw [keptKey, keptKey, h.queues.replyQueues]
  | legacy =>
    refine ⟨?_, h.queues.nvs _ (by simp [keyFamily, sessionFamilies])⟩
    rw [keptKey, keptKey, h.legacyKey, h.legacyFlag]
  | contactQueue => exact absurd rfl hq

/-- The key of the contact queues is as before. -/
structure KeepsContactKey (s s' : PeerKeyTask K) : Prop where
  cqE2ePeer : s'.cqE2ePeer = s.cqE2ePeer
  rotationCqPeer : s'.rotationCqPeer = s.rotationCqPeer
  stored : s'.storedKey .contactQueue = s.storedKey .contactQueue

/-- What two steps keep, both together keep. -/
theorem KeepsContactKey.trans {s s' s'' : PeerKeyTask K} (h : KeepsContactKey s s')
    (h' : KeepsContactKey s' s'') : KeepsContactKey s s'' :=
  ⟨h'.cqE2ePeer.trans h.cqE2ePeer, h'.rotationCqPeer.trans h.rotationCqPeer,
    h'.stored.trans h.stored⟩

/-- What leaves all keys leaves that of the contact queues. -/
theorem KeepsContactKey.of_keys {s s' : PeerKeyTask K}
    (h : s.toContactQueueTask.KeepsKeys s'.toContactQueueTask) : KeepsContactKey s s' :=
  ⟨h.cqE2ePeer, h.rotationCqPeer, h.queues.nvs _ (by simp [keyFamily, sessionFamilies])⟩

/-- The block after a confirmation leaves all keys. -/
theorem postConfirmation_keys :
    s.toContactQueueTask.KeepsKeys (s.postConfirmation P idx m).toContactQueueTask ∧
      KeepsReplyKeys s (s.postConfirmation P idx m) := by
  have hselect : s.toContactQueueTask.KeepsKeys
      { s.select idx with done42d := Function.update s.done42d idx true } :=
    ⟨(s.select_keys idx).queues, rfl, rfl⟩
  rw [postConfirmation]
  dsimp only
  split_ifs
  · exact ⟨.refl _, .refl _, rfl, rfl⟩
  · exact ⟨hselect, hselect.queues, rfl, rfl⟩
  · have hhello := hselect.trans
      (ContactQueueTask.peerSendHello_keys P _ idx m.onReply.hello m.onReply.helloCalls)
    exact ⟨hhello, hhello.queues, rfl, rfl⟩

/-- A key for a reply queue is not one for the contact queues. -/
theorem keepReplyKey_contact (lands : Bool) (key : Bytes 32) :
    KeepsContactKey s (s.keepReplyKey idx lands key) := by
  have hkey : "cq_e2e_peer" ≠ rqKey idx := ne_of_keyFamily (by rw [keyFamily_rqKey]; decide)
  exact ⟨rfl, rfl, (replyQueueSave_spec _ idx lands).2.2 _ hkey⟩

/-- Neither is one for the legacy reply queue. -/
theorem keepLegacyKey_contact (key : Bytes 32) : KeepsContactKey s (s.keepLegacyKey m key) := by
  rw [keepLegacyKey, queueSaveCredentials]
  cases s.dev.ourQueue with
  | none => exact ⟨rfl, rfl, rfl⟩
  | some q =>
    dsimp only
    have hour : (s.dev.nvs.put "queue_our" (.ourQueue q)) "cq_e2e_peer" = s.dev.nvs "cq_e2e_peer" :=
      Store.put_of_ne _ _ (by decide)
    have he2e : ∀ blob : Blob K, ((s.dev.nvs.put "queue_our" (.ourQueue q)).put "queue_e2e" blob)
        "cq_e2e_peer" = s.dev.nvs "cq_e2e_peer" :=
      fun blob => (Store.put_of_ne _ blob (by decide)).trans hour
    split_ifs
    · exact ⟨rfl, rfl, rfl⟩
    · exact ⟨rfl, rfl, he2e (queueE2eBlob key true)⟩
    · exact ⟨rfl, rfl, hour⟩

/-- The reply-queue handler leaves the key of the contact queues. -/
theorem afterReply_contact (queues : MsgQueues) :
    KeepsContactKey s (s.afterReply P B m queues) := by
  have hrefl : KeepsContactKey s s := ⟨rfl, rfl, rfl⟩
  rw [afterReply]
  cases queues.reply with
  | none => exact hrefl
  | some reply =>
    obtain ⟨idx, legacy⟩ := reply
    dsimp only
    split_ifs
    · have hdecrypted : KeepsContactKey s (if s.usesOwnQueue idx legacy then s.decryptOwn B idx m
          else s.smpE2eDecryptReplyMessage B m).1 := by
        split_ifs
        · rw [decryptOwn]
          dsimp only
          cases ((s.ownCall idx m).result B).newPeer with
          | none => exact hrefl
          | some key => exact s.keepReplyKey_contact idx _ key
        · rw [smpE2eDecryptReplyMessage]
          dsimp only
          cases ((s.legacyCall m).result B).newPeer with
          | none => exact hrefl
          | some key => exact s.keepLegacyKey_contact m key
      rw [appHandleReplyQueueMsg]
      cases (if s.usesOwnQueue idx legacy then s.decryptOwn B idx m
          else s.smpE2eDecryptReplyMessage B m).2 with
      | none => exact hdecrypted.trans (.of_keys (postConfirmation_keys P _ idx m).1)
      | some opened =>
        refine (hdecrypted.trans (.of_keys ?_)).trans (.of_keys (postConfirmation_keys P _ idx m).1)
        exact (ContactQueueTask.select_keys _ idx).trans
          (ContactQueueTask.smpAgentProcessMessage_keys P _ m.replyMsg opened.2)
    · exact hrefl

/-- The contact-queue handler leaves the keys of the reply queues. -/
theorem handleMsg_reply (queues : MsgQueues) :
    KeepsReplyKeys (s.afterReply P B m queues) (s.handleMsg P B m queues) := by
  rw [handleMsg]
  cases queues.contact with
  | none => exact ⟨.refl _, rfl, rfl⟩
  | some c =>
    exact ⟨ContactQueueTask.appHandleContactQueueMsg_queues P B _ c m.onContact, rfl, rfl⟩

/-- A key kept for a reply queue is in its record, and in NVS if the save lands. -/
theorem keepReplyKey_kept (lands : Bool) (key : Bytes 32)
    (hown : s.usesOwnQueue idx false = true) :
    (s.keepReplyKey idx lands key).keptKey (.replyQueue idx) = (key, true) ∧
      (s.keepReplyKey idx lands key).storedKey (.replyQueue idx) =
        if lands then some (.replyQueue (s.keyedQueue idx key))
        else s.storedKey (.replyQueue idx) := by
  have hqueue : Function.update s.dev.replyQueues idx (s.keyedQueue idx key) idx =
      s.keyedQueue idx key := Function.update_self ..
  obtain ⟨hlt, hvalid⟩ : idx < maxContacts ∧ (s.keyedQueue idx key).valid = true := by
    simpa [usesOwnQueue, keyedQueue] using hown
  obtain ⟨hqueues, hnvs, -⟩ := replyQueueSave_spec { s.dev with
    replyQueues := Function.update s.dev.replyQueues idx (s.keyedQueue idx key) } idx lands
  dsimp only at hqueues hnvs
  rw [hqueue] at hnvs
  refine ⟨?_, (hnvs ⟨hlt, hvalid⟩).trans ?_⟩
  · rw [keptKey, keepReplyKey, withTask, hqueues, hqueue]
    rfl
  · cases lands <;> rfl

/-- A key kept for the legacy reply queue is in NVS if `our_queue` is valid and both blobs of
`queue_save_credentials` are written. -/
theorem keepLegacyKey_kept (key : Bytes 32) :
    (s.keepLegacyKey m key).keptKey .legacy = (key, true) ∧
      (s.keepLegacyKey m key).storedKey .legacy =
        if s.dev.ourQueue.any (·.valid) ∧ m.onReply.ourLands ∧ m.onReply.e2eLands then
          some (queueE2eBlob key true)
        else s.storedKey .legacy := by
  have hour : ∀ q, (s.dev.nvs.put "queue_our" (.ourQueue q)) "queue_e2e" =
      s.dev.nvs "queue_e2e" := fun q => Store.put_of_ne _ _ (by decide)
  have he2e : ∀ (q : OurQueue) (blob : Blob K), ((s.dev.nvs.put "queue_our" (.ourQueue q)).put
      "queue_e2e" blob) "queue_e2e" = some blob := fun _ _ => Store.put_self ..
  rw [keepLegacyKey, queueSaveCredentials]
  cases s.dev.ourQueue with
  | none => exact ⟨rfl, rfl⟩
  | some q =>
    dsimp only
    rw [Option.any_some]
    cases q.valid with
    | false => exact ⟨rfl, rfl⟩
    | true =>
      cases m.onReply.ourLands with
      | false => exact ⟨rfl, rfl⟩
      | true =>
        cases m.onReply.e2eLands with
        | false => exact ⟨rfl, hour q⟩
        | true => exact ⟨rfl, he2e q (queueE2eBlob key true)⟩

/-- A message that fails to open does no more with the reply queues than keep its key. -/
theorem handleMsg_failed {queues : MsgQueues} {legacy : Bool} {kept : PeerKeyTask K}
    (hreply : queues.reply = some (idx, legacy)) (hlen : 16 < m.onContact.msg.encrypted.length)
    (hkept : (if s.usesOwnQueue idx legacy then s.decryptOwn B idx m
      else s.smpE2eDecryptReplyMessage B m) = (kept, none)) :
    KeepsReplyKeys kept (s.handleMsg P B m queues) := by
  have hafter : s.afterReply P B m queues = kept.postConfirmation P idx m := by
    rw [afterReply, hreply]
    dsimp only
    rw [if_pos hlen, appHandleReplyQueueMsg, hkept]
  have hblock := (kept.postConfirmation_keys P idx m).2
  rw [← hafter] at hblock
  exact hblock.trans (s.handleMsg_reply P B m queues)

/-- A failed decryption does to the key of its queue what the envelope says: a key that stands
in it is kept, whether it opens the message or not; without one the key and its flag stay, but
that the contact queues take the key of the rotation where they have none. -/
theorem failed_decrypt_keeps_envelope_key (queues : MsgQueues) :
    s.KeyFollowsEnvelope P B m queues := by
  intro q call hcall hfails
  cases q with
  | replyQueue idx =>
    rw [decryptCall, Option.mem_def] at hcall
    split_ifs at hcall with hcond
    obtain ⟨hreply, hlen, hown⟩ := hcond
    obtain rfl := Option.some.inj hcall
    have hkeys := s.handleMsg_failed P B idx m hreply hlen
      (show _ = (_, none) by rw [if_pos hown, decryptOwn, hfails, DecryptCall.newPeer_eq])
    obtain ⟨hram, hnvs⟩ := hkeys.kept (q := .replyQueue idx) (by simp)
    rw [hram, hnvs]
    cases (s.ownCall idx m).carriedKey B with
    | none => exact ⟨rfl, Or.inl rfl⟩
    | some key => exact s.keepReplyKey_kept idx m.onReply.rqLands key hown
  | legacy =>
    obtain ⟨⟨idx, legacy⟩, hreply, hsome⟩ := Option.bind_eq_some_iff.1 hcall
    split_ifs at hsome with hcond
    obtain ⟨hlen, hown⟩ := hcond
    obtain rfl := Option.some.inj hsome
    have hown' : ¬ s.usesOwnQueue idx legacy = true := by simpa using hown
    have hkeys := s.handleMsg_failed P B idx m hreply hlen
      (show _ = (_, none) by
        rw [if_neg hown', smpE2eDecryptReplyMessage, hfails, DecryptCall.newPeer_eq])
    obtain ⟨hram, hnvs⟩ := hkeys.kept (q := .legacy) (by simp)
    rw [hram, hnvs]
    cases (s.legacyCall m).carriedKey B with
    | none => exact ⟨rfl, Or.inl rfl⟩
    | some key => exact s.keepLegacyKey_kept m key
  | contactQueue =>
    obtain ⟨c, hcontact, hsome⟩ := Option.bind_eq_some_iff.1 hcall
    have hafter := s.afterReply_contact P B m queues
    have hhandled : s.handleMsg P B m queues = (s.afterReply P B m queues).withTask
        ((s.afterReply P B m queues).appHandleContactQueueMsg P B c m.onContact) := by
      rw [handleMsg, hcontact]
    have hkey : (s.handleMsg P B m queues).cqE2ePeer =
        (call.carriedKey B <|> s.cqE2ePeer <|> s.rotationCqPeer) := by
      rw [hhandled, ← DecryptCall.newPeer_eq, ← hafter.cqE2ePeer, ← hafter.rotationCqPeer]
      exact ContactQueueTask.appHandleContactQueueMsg_failed P B _ hsome hfails
    have hstored : (s.handleMsg P B m queues).storedKey .contactQueue =
        s.storedKey .contactQueue :=
      ((s.handleMsg_reply P B m queues).queues.nvs _ (by simp [keyFamily, sessionFamilies])).trans
        hafter.stored
    cases hcarried : call.carriedKey B with
    | some key =>
      rw [hcarried] at hkey
      exact ⟨by rw [keptKey, hkey]; rfl, hstored⟩
    | none =>
      rw [hcarried] at hkey
      refine ⟨hstored, ?_⟩
      cases hcached : s.cqE2ePeer with
      | some key =>
        rw [hcached] at hkey
        exact Or.inl (by rw [keptKey, keptKey, hkey, hcached]; rfl)
      | none =>
        rw [hcached] at hkey
        cases hrotation : s.rotationCqPeer with
        | none =>
          rw [hrotation] at hkey
          exact Or.inl (by rw [keptKey, keptKey, hkey, hcached]; rfl)
        | some key =>
          rw [hrotation] at hkey
          exact Or.inr ⟨rfl, hcached, key, hrotation, by rw [keptKey, hkey]; rfl⟩

end PeerKeyTask

/-! ### A key that opens nothing -/

/-- A device whose reply queue has a key of the peer. -/
def keyedDevice : PeerKeyTask SymKey where
  toContactQueueTask := { settledContact with
    dev := { settledContact.dev with
      replyQueues := fun _ =>
        { ReplyQueue.zero with
          valid := true, e2ePeerPublic := Vector.replicate 32 9, e2ePeerValid := true } } }
  replyQueueE2ePeerPublic := zeroBytes 32
  replyQueueE2ePeerValid := false
  hasPeerSenderAuth := false

/-- A MSG whose envelope has a key of its own and ends behind it. -/
def foreignKeyMsg : ReceivedMsg where
  onReply :=
    { envelope := ⟨true, fun _ => 0, true, true⟩
      rqLands := true
      ourLands := true
      e2eLands := true
      e2eJunk := fun _ => 0
      receive := ⟨true, fun _ => 0, true, fun _ => 0, sampleDraws⟩
      lands := fun _ => true
      hasSenderAuth := false
      keyQueued := true
      hello := ⟨.encrypt false true [] 0, fun _ => true, false, zeroBytes 32, true⟩
      helloCalls := 0 }
  onContact := { keyedMsg [] with
    msg :=
      { encrypted := List.replicate 16 0 ++ [0, 58] ++ List.replicate 12 0 ++ [0x31, 0x2C] ++
          RotationDevice.x25519SpkiHdr ++ List.replicate 32 7
        msgId := List.replicate 24 1 } }

namespace PeerKeyTask

/-- Whoever can send to a reply queue can replace the key that is kept for its contact. -/
theorem foreign_key_replaces_kept :
    ¬ ∀ (s : PeerKeyTask SymKey) (m : ReceivedMsg) (queues : MsgQueues),
      s.KeepsKeyOnFailure symbolic tagBoxes m queues := by
  intro h
  have hfails : ((keyedDevice.ownCall 0 foreignKeyMsg).result tagBoxes).plain.isNone = true := by
    decide
  have hcall : keyedDevice.decryptCall symbolic tagBoxes foreignKeyMsg ⟨some (0, false), none⟩
      (.replyQueue 0) = some (keyedDevice.ownCall 0 foreignKeyMsg) := by
    rw [decryptCall, if_pos (by decide)]
  have hkept := (h keyedDevice foreignKeyMsg ⟨some (0, false), none⟩ (.replyQueue 0) _ hcall
    (Option.isNone_iff_eq_none.1 hfails)).1
  revert hkept
  decide

end PeerKeyTask

end SimpleGo
