import SimpleGo.Rotation.MessageLoss
import SimpleGo.Rotation.Rules
import SimpleGo.Tasks.Transmissions

/-!
# Acknowledging a message

The server keeps a MSG until it is acknowledged under the id of its queue and with the key of
that queue. `smp_app_run` looks the id up among the queues of the contacts and, apart from that,
among the reply queues, and runs the handlers one after the other. The ACK is the last thing each
of them does with the message; the credentials are read then.
-/

namespace SimpleGo

open Lib

/-! ### The queues and the commands -/

/-- The id of a queue and the key its commands are signed with. -/
structure RecvQueue where
  id : List UInt8
  authKey : Bytes 64
  deriving DecidableEq

/-- The `NET_CMD_SEND_ACK` of a message. -/
structure AckCmd where
  recipientId : List UInt8
  msgId : List UInt8
  rcvAuthSecret : Bytes 64
  deriving DecidableEq

/-- The commands a MSG leads to. -/
inductive NetCmd where
  | sendKey (rqSlot : Option ℕ)
  | subscribeAll
  | sendAck (ack : AckCmd)
  deriving DecidableEq

/-- The ACKs among the commands. -/
def acksOf (cmds : List NetCmd) : List AckCmd :=
  cmds.filterMap fun
    | .sendAck ack => some ack
    | _ => none

namespace RotationDevice

variable (dev : RotationDevice)

/-- The queue of a contact. -/
def contactRecv (c : ℕ) : RecvQueue := ⟨dev.contactQueueId c, (dev.contacts c).rcvAuthSecret⟩

/-- The reply queue of a contact. -/
def ownRecv (idx : ℕ) : RecvQueue :=
  ⟨(dev.replyQueues idx).rcvId.toList.take (dev.replyQueues idx).rcvIdLen.toNat,
    (dev.replyQueues idx).rcvAuthPrivate⟩

/-- `our_queue`, the legacy reply queue. -/
def ourRecv : RecvQueue :=
  ⟨dev.ourQueue.rcvId.toList.take dev.ourQueue.rcvIdLen.toNat, dev.ourQueue.rcvAuthPrivate⟩

/-- The queue a message of the reply-queue handler is acknowledged on. -/
def ackRecv (idx : ℕ) (legacy : Bool) : RecvQueue :=
  if !legacy && (dev.replyQueues idx).valid then dev.ownRecv idx else dev.ourRecv

/-- A queue the device receives on: that of a contact in use, a valid reply queue, or
`our_queue`. -/
inductive KnownQueue : RecvQueue → Prop
  | contact (c : ℕ) (hc : c < maxContacts) (hactive : (dev.contacts c).isActive = true) :
    KnownQueue (dev.contactRecv c)
  | reply (idx : ℕ) (hidx : idx < maxContacts) (hvalid : (dev.replyQueues idx).valid = true) :
    KnownQueue (dev.ownRecv idx)
  | legacy (hlen : 0 < dev.ourQueue.rcvIdLen) : KnownQueue dev.ourRecv

/-- `find_contact_by_recipient_id`. -/
def findContactByRecipientId (entity : List UInt8) : Option ℕ :=
  (List.range maxContacts).find? fun i =>
    (dev.contacts i).isActive && decide ((dev.contacts i).recipientIdLen.toNat = entity.length) &&
      decide ((dev.contacts i).recipientId.toList.take entity.length = entity)

/-- `find_reply_queue_by_rcv_id`. -/
def findReplyQueueByRcvId (entity : List UInt8) : Option ℕ :=
  if entity = [] then none
  else
    (List.range maxContacts).find? fun i =>
      (dev.replyQueues i).valid && decide ((dev.replyQueues i).rcvIdLen = entity.length) &&
        decide ((dev.replyQueues i).rcvId.toList.take entity.length = entity)

end RotationDevice

/-! ### The app task -/

/-- The app task as far as it acknowledges messages. -/
structure AckTask where
  dev : RotationDevice
  /-- `s_handshake_contact_idx`, none for -1. -/
  handshakeContact : Option ℕ
  /-- `is_42d_done`. -/
  done42d : ℕ → Bool
  hasPeerSenderAuth : Bool
  /-- What has been put into `app_to_net_buf`. -/
  toNet : List NetCmd

/-- What besides the state decides how a MSG is handled: what each handler's decryptions give,
and which commands `app_to_net_buf` has room for. -/
structure AckEnv where
  reply : MsgEnv
  contact : MsgEnv
  /-- The agent finds a sender authentication key in the text it gets. -/
  replyAuth : Bool
  contactAuth : Bool
  keyQueued : Bool
  subscribeQueued : Bool
  replyAckQueued : Bool
  contactAckQueued : Bool

namespace AckTask

variable (X : Sodium) (s : AckTask) (msgId body : List UInt8) (env : AckEnv)

/-- `app_send_ack`. -/
def appSendAck (queue : RecvQueue) (queued : Bool) : AckTask :=
  if queued then { s with toNet := s.toNet ++ [.sendAck ⟨queue.id, msgId, queue.authKey⟩] } else s

/-- The reply queue with an id, and whether it is the legacy one. -/
def replyMatch (entity : List UInt8) : Option (ℕ × Bool) :=
  match s.dev.findReplyQueueByRcvId entity with
  | some idx => some (idx, false)
  | none =>
    if 0 < s.dev.ourQueue.rcvIdLen ∧ (entity.length : ℤ) = s.dev.ourQueue.rcvIdLen ∧
        s.dev.ourQueue.rcvId.toList.take entity.length = entity then
      s.handshakeContact.map fun idx => (idx, true)
    else none

/-- The block after a confirmation, as to the commands: KEY, and after the HELLO a new
subscription. Without room for the KEY it is left early. -/
def postConfirmation (idx : ℕ) (legacy : Bool) : AckTask :=
  if !s.hasPeerSenderAuth || s.done42d idx then s
  else
    let s := { s with done42d := Function.update s.done42d idx true }
    if !env.keyQueued then s
    else
      { s with
        hasPeerSenderAuth := false
        toNet := s.toNet ++ .sendKey (if legacy then none else some idx) ::
          if env.subscribeQueued then [.subscribeAll] else [] }

/-- `app_handle_reply_queue_msg`. -/
def appHandleReplyQueueMsg (idx : ℕ) (legacy : Bool) : AckTask :=
  let msg := { env.reply with encLen := body.length, handshakeDone := s.done42d idx }
  let processed := { s with
    dev := (s.dev.appHandleReplyQueueMsg idx legacy msg).1
    hasPeerSenderAuth := s.hasPeerSenderAuth || env.replyAuth }
  let s := processed.postConfirmation env idx legacy
  s.appSendAck msgId (s.dev.ackRecv idx legacy) env.replyAckQueued

/-- `app_handle_contact_queue_msg`. -/
def appHandleContactQueueMsg (contact : Option ℕ) : AckTask :=
  match contact with
  | none => s
  | some c =>
    if (s.dev.contacts c).haveSrvDh = 0 ∨ body.length ≤ 16 then s
    else
      let msg := { env.contact with encLen := body.length, handshakeDone := s.done42d c }
      let s := { s with
        dev := (s.dev.appHandleContactQueueMsg X c msg).1
        hasPeerSenderAuth := s.hasPeerSenderAuth || env.contactAuth }
      s.appSendAck msgId (s.dev.contactRecv c) env.contactAckQueued

/-- The task when the reply-queue handler is done with a MSG, if it gets it. -/
def replyHandled (entity : List UInt8) : AckTask :=
  match s.replyMatch entity with
  | some (idx, legacy) =>
    if 16 < body.length then s.appHandleReplyQueueMsg msgId body env idx legacy else s
  | none => s

/-- A MSG in `smp_app_run`. Both look-ups come before the handlers. -/
def handleMsg (entity : List UInt8) : AckTask :=
  (s.replyHandled msgId body env entity).appHandleContactQueueMsg X msgId body env
    (s.dev.findContactByRecipientId entity)

/-- A frame in `smp_app_run`. -/
def appRun (frame : List UInt8) : AckTask :=
  match appDispatch frame with
  | some (.msg entity msgId body) => s.handleMsg X msgId body env entity
  | _ => s

/-! ### One ACK -/

/-- From `s` to `s'` one ACK is queued: for this message, under the id and with the key of a
known queue. -/
def AckedOnce (s' : AckTask) (entity msgId : List UInt8) : Prop :=
  ∃ queue, s.dev.KnownQueue queue ∧ queue.id = entity ∧
    acksOf s'.toNet = acksOf s.toNet ++ [⟨entity, msgId, queue.authKey⟩]

/-- The reply-queue handler is run for the id and can queue its ACK. -/
def ReplyAnswers (entity : List UInt8) : Prop :=
  (s.replyMatch entity).isSome = true ∧ env.replyAckQueued = true

/-- The contact found for the id has the server's key, and its ACK can be queued. -/
def ContactAnswers (entity : List UInt8) : Prop :=
  (∃ c ∈ s.dev.findContactByRecipientId entity, (s.dev.contacts c).haveSrvDh ≠ 0) ∧
    env.contactAckQueued = true

/-- The id fits its buffer, the body is longer than a MAC, and one of the handlers answers. -/
def OneAnswer (entity : List UInt8) : Prop :=
  msgId.length ≤ 24 ∧ 16 < body.length ∧
    Xor (s.ReplyAnswers env entity) (s.ContactAnswers env entity)

end AckTask

/-! ### A frame with one MSG -/

/-- The App Task takes at most 24 bytes of a message id; what is left of a longer one goes into
the body. -/
theorem dispatchCommand_msg {resp : Mem} {contentLen p : ℕ} {entity msgId body : List UInt8}
    (h : Holds resp p (ServerCommand.msg msgId body).encode)
    (hlen : contentLen = p + (ServerCommand.msg msgId body).encode.length)
    (hid : msgId.length < 256) :
    dispatchCommand resp contentLen p entity =
      some (.msg entity (msgId.take 24) (msgId.drop 24 ++ body)) := by
  rw [ServerCommand.encode] at h hlen
  simp only [List.length_cons, List.length_append, shortString_length] at hlen
  simp only [holds_cons, holds_append, shortString_length] at h
  obtain ⟨h0, h1, h2, h3, hmsgId, hbody⟩ := h
  obtain ⟨hidLen, hidBytes⟩ := Holds.shortString hmsgId hid
  have hrest : Holds resp (p + 5) (msgId ++ body) := by
    rw [holds_append]
    refine ⟨hidBytes, ?_⟩
    rwa [show p + 5 + msgId.length = p + 1 + 1 + 1 + 1 + (1 + msgId.length) by omega]
  rw [dispatchCommand, if_neg (by simp [h0]), if_neg (by simp [h0]),
    if_pos ⟨by omega, h0, h1, h2, h3⟩, if_neg (by omega)]
  have hmin : min (resp (p + 4)).toNat 24 = (msgId.take 24).length := by
    rw [show p + 4 = p + 1 + 1 + 1 + 1 from rfl, hidLen, List.length_take, Nat.min_comm]
  have hsplit : msgId ++ body = msgId.take 24 ++ (msgId.drop 24 ++ body) := by
    rw [← List.append_assoc, List.take_append_drop]
  rw [hsplit, holds_append] at hrest
  have htake : (msgId.take 24).length ≤ msgId.length := List.length_take_le' ..
  have hdrop : (msgId.drop 24 ++ body).length =
      msgId.length - (msgId.take 24).length + body.length := by
    rw [List.length_append, List.length_drop, List.length_take]
    omega
  simp only [hmin]
  rw [if_neg (by omega), hrest.1.window_eq rfl, hrest.2.window_eq (by omega)]

/-- The frame of a MSG reaches the handlers with the id it names. -/
theorem appDispatch_msg {t : Transmission} {msgId body : List UInt8}
    (hmsg : t.command = .msg msgId body) (hshort : t.entity.length ≤ 24) :
    appDispatch (batchContent [t]) =
      some (.msg t.entity (msgId.take 24) (msgId.drop 24 ++ body)) := by
  have hfirst := holdsFirst (holds_memOf (batchContent [t]) fun _ => 0)
  have hlen := hfirst.length
  have hcommandAt : t.commandAt = t.entityAt + 1 + t.entity.length := rfl
  have hentityAt : t.entityAt = t.corrAt + 1 + t.corr.length := rfl
  have hcorrAt : t.corrAt = 3 + 1 + t.auth.length := rfl
  have hentity := Holds.shortString hfirst.entity t.entity_lt
  have hcommand := hfirst.command
  rw [List.flatMap_nil, List.append_nil, hmsg] at hcommand
  rw [List.flatMap_nil, List.length_nil, Nat.add_zero, hmsg] at hlen
  rw [appDispatch, if_neg (by omega), skipField_of_holds hfirst.auth t.auth_lt (by omega)]
  simp only [Option.bind_some]
  rw [← hcorrAt, skipField_of_holds hfirst.corr t.corr_lt (by omega)]
  simp only [Option.bind_some]
  rw [← hentityAt, if_neg (by omega), hentity.1, if_neg (by omega), Nat.min_eq_left hshort,
    hentity.2.window_eq rfl, ← hcommandAt]
  exact dispatchCommand_msg hcommand hlen (t.msgId_lt msgId body hmsg)

/-! ### The credentials while a message is handled -/

namespace RotationDevice

variable {dev dev' dev'' : RotationDevice}

/-- The credentials of all queues are as before. -/
structure SameRecv (dev dev' : RotationDevice) : Prop where
  contacts : dev'.contacts = dev.contacts
  ourQueue : dev'.ourQueue = dev.ourQueue
  ownRecv : dev'.ownRecv = dev.ownRecv
  valid : ∀ i, (dev'.replyQueues i).valid = (dev.replyQueues i).valid

/-- They are where the tables are. -/
theorem SameRecv.of_tables (hcontacts : dev'.contacts = dev.contacts)
    (hqueues : dev'.replyQueues = dev.replyQueues) (hour : dev'.ourQueue = dev.ourQueue) :
    SameRecv dev dev' := by
  refine ⟨hcontacts, hour, ?_, fun i => by rw [hqueues]⟩
  funext i
  rw [RotationDevice.ownRecv, RotationDevice.ownRecv, hqueues]

/-- What two steps keep, both together keep. -/
theorem SameRecv.trans (h : SameRecv dev dev') (h' : SameRecv dev' dev'') : SameRecv dev dev'' :=
  ⟨h'.contacts.trans h.contacts, h'.ourQueue.trans h.ourQueue, h'.ownRecv.trans h.ownRecv,
    fun i => (h'.valid i).trans (h.valid i)⟩

/-- Then a message is acknowledged on the same queue. -/
theorem SameRecv.ackRecv (h : SameRecv dev dev') (idx : ℕ) (legacy : Bool) :
    dev'.ackRecv idx legacy = dev.ackRecv idx legacy := by
  rw [RotationDevice.ackRecv, RotationDevice.ackRecv, h.valid, h.ownRecv, ourRecv, ourRecv,
    h.ourQueue]

/-- So it is on the queue of a contact. -/
theorem SameRecv.contactRecv (h : SameRecv dev dev') (c : ℕ) :
    dev'.contactRecv c = dev.contactRecv c := by
  rw [RotationDevice.contactRecv, RotationDevice.contactRecv, contactQueueId, contactQueueId,
    h.contacts]

variable (dev)

/-- A QKEY changes the record of a rotation. -/
theorem rotationHandleQkey_recv (idx : ℕ) (data : List UInt8) :
    SameRecv dev (dev.rotationHandleQkey idx data) := by
  rcases rotationHandleQkey_cases idx data with heq | ⟨rd, -, -, -, heq | heq⟩ <;> rw [heq]
  · exact .of_tables rfl rfl rfl
  · exact .of_tables rfl rfl rfl
  · exact .of_tables (updateRecord_contacts ..) (updateRecord_replyQueues ..)
      (updateRecord_ourQueue ..)

/-- A QTEST may end the rotation; the live switch is not part of that. -/
theorem rotationMarkQtestReceived_recv (idx : ℕ) :
    SameRecv dev (dev.rotationMarkQtestReceived idx) := by
  have hmarked : SameRecv dev (dev.markState idx .done) := by
    rw [markState]
    split_ifs
    · exact .of_tables rfl rfl rfl
    · exact .of_tables (updateRecord_contacts ..) (updateRecord_replyQueues ..)
        (updateRecord_ourQueue ..)
  rw [rotationMarkQtestReceived]
  dsimp only
  split_ifs
  · exact .of_tables rfl rfl rfl
  · exact hmarked.trans (.of_tables rfl rfl rfl)
  · exact hmarked.trans (.of_tables rfl rfl rfl)

/-- What a message brings about leaves the credentials. -/
theorem applyEffects_recv (idx : ℕ) (effects : List MsgEffect) :
    SameRecv dev (dev.applyEffects idx effects) := by
  induction effects generalizing dev with
  | nil => exact .of_tables rfl rfl rfl
  | cons effect effects ih =>
    have heffect : SameRecv dev (dev.applyEffect idx effect) := by
      cases effect with
      | qkey data =>
        rw [applyEffect]
        split_ifs
        · exact dev.rotationHandleQkey_recv idx data
        · exact .of_tables rfl rfl rfl
      | qtest =>
        rw [applyEffect]
        split_ifs
        · exact dev.rotationMarkQtestReceived_recv idx
        · exact .of_tables rfl rfl rfl
      | _ => exact .of_tables rfl rfl rfl
    exact heffect.trans (ih (dev.applyEffect idx effect))

/-- The E2E key of the peer is not one of the credentials. -/
theorem learnPeerKey_recv (idx : ℕ) (newPeer : Option (Bytes 32)) :
    SameRecv dev (dev.learnPeerKey idx newPeer) := by
  cases newPeer with
  | none => exact .of_tables rfl rfl rfl
  | some key =>
    have hqueue : ∀ i, (dev.learnPeerKey idx (some key)).ownRecv i = dev.ownRecv i ∧
        ((dev.learnPeerKey idx (some key)).replyQueues i).valid = (dev.replyQueues i).valid := by
      intro i
      rw [learnPeerKey, ownRecv, ownRecv]
      dsimp only [write]
      by_cases hsame : i = idx
      · subst hsame
        rw [Function.update_self]
        exact ⟨rfl, rfl⟩
      · rw [Function.update_of_ne hsame]
        exact ⟨rfl, rfl⟩
    exact ⟨rfl, rfl, funext fun i => (hqueue i).1, fun i => (hqueue i).2⟩

/-- The handlers leave the credentials of all queues. -/
theorem appHandleContactQueueMsg_recv (X : Sodium) (idx : ℕ) (env : MsgEnv) :
    SameRecv dev (dev.appHandleContactQueueMsg X idx env).1 := by
  rw [appHandleContactQueueMsg]
  split_ifs
  · exact .of_tables rfl rfl rfl
  · exact dev.rotationMarkQtestReceived_recv idx
  · exact dev.applyEffects_recv idx _

@[inherit_doc appHandleContactQueueMsg_recv]
theorem appHandleReplyQueueMsg_recv (idx : ℕ) (legacy : Bool) (env : MsgEnv) :
    SameRecv dev (dev.appHandleReplyQueueMsg idx legacy env).1 := by
  have hlearned : SameRecv dev (if !legacy && (dev.replyQueues idx).valid then
      dev.learnPeerKey idx env.newPeer else dev) := by
    split_ifs
    · exact dev.learnPeerKey_recv idx env.newPeer
    · exact .of_tables rfl rfl rfl
  exact hlearned.trans (applyEffects_recv _ idx _)

/-- The contact that is found has the id. -/
theorem findContactByRecipientId_known {entity : List UInt8} {c : ℕ}
    (h : dev.findContactByRecipientId entity = some c) :
    dev.KnownQueue (dev.contactRecv c) ∧ (dev.contactRecv c).id = entity := by
  have hfound := List.find?_some h
  have hmem := List.mem_of_find?_eq_some h
  simp only [Bool.and_eq_true, decide_eq_true_eq] at hfound
  obtain ⟨⟨hactive, hlen⟩, hid⟩ := hfound
  refine ⟨.contact c (List.mem_range.1 hmem) hactive, ?_⟩
  rw [contactRecv, contactQueueId, hlen]
  exact hid

/-- So has the reply queue. -/
theorem findReplyQueueByRcvId_known {entity : List UInt8} {idx : ℕ}
    (h : dev.findReplyQueueByRcvId entity = some idx) :
    dev.KnownQueue (dev.ackRecv idx false) ∧ (dev.ackRecv idx false).id = entity := by
  rw [findReplyQueueByRcvId] at h
  split_ifs at h
  have hfound := List.find?_some h
  have hmem := List.mem_of_find?_eq_some h
  simp only [Bool.and_eq_true, decide_eq_true_eq] at hfound
  obtain ⟨⟨hvalid, hlen⟩, hid⟩ := hfound
  rw [ackRecv, if_pos (by simp [hvalid])]
  refine ⟨.reply idx (List.mem_range.1 hmem) hvalid, ?_⟩
  rw [ownRecv, hlen]
  exact hid

/-- An id of a queue has at most 24 bytes. -/
theorem KnownQueue.id_length {queue : RecvQueue} (h : dev.KnownQueue queue) :
    queue.id.length ≤ 24 := by
  cases h with
  | contact c hc hactive => exact (List.length_take_le' ..).trans_eq (Vector.length_toList ..)
  | reply idx hidx hvalid => exact (List.length_take_le' ..).trans_eq (Vector.length_toList ..)
  | legacy hlen => exact (List.length_take_le' ..).trans_eq (Vector.length_toList ..)

end RotationDevice

/-! ### The ACKs of a message -/

/-- The ACKs of two lists of commands. -/
theorem acksOf_append (cmds cmds' : List NetCmd) :
    acksOf (cmds ++ cmds') = acksOf cmds ++ acksOf cmds' := List.filterMap_append ..

/-- The ACKs of a handler: one for this message on a known queue if it answers, else none. -/
def AnswersWith (dev : RotationDevice) (answers : Prop) (entity msgId : List UInt8)
    (acks : List AckCmd) : Prop :=
  (¬ answers ∧ acks = []) ∨
    (answers ∧ ∃ queue, dev.KnownQueue queue ∧ queue.id = entity ∧
      acks = [⟨entity, msgId, queue.authKey⟩])

/-- All of them carry the message id. -/
theorem AnswersWith.msgId_eq {dev : RotationDevice} {answers : Prop} {entity msgId : List UInt8}
    {acks : List AckCmd} (h : AnswersWith dev answers entity msgId acks) :
    ∀ ack ∈ acks, ack.msgId = msgId := by
  rintro ack hack
  rcases h with ⟨-, rfl⟩ | ⟨-, queue, -, -, rfl⟩
  · cases hack
  · rw [List.mem_singleton.1 hack]

namespace AckTask

variable (X : Sodium) (s : AckTask) (msgId body : List UInt8) (env : AckEnv)

/-- `app_send_ack` queues one ACK if there is room for it. -/
theorem appSendAck_acks (queue : RecvQueue) (queued : Bool) :
    acksOf (s.appSendAck msgId queue queued).toNet =
      acksOf s.toNet ++ if queued then [⟨queue.id, msgId, queue.authKey⟩] else [] := by
  cases queued with
  | false => exact (List.append_nil _).symm
  | true => exact acksOf_append _ _

/-- The block after a confirmation queues no ACK and leaves the tables. -/
theorem postConfirmation_acks (idx : ℕ) (legacy : Bool) :
    acksOf (s.postConfirmation env idx legacy).toNet = acksOf s.toNet ∧
      (s.postConfirmation env idx legacy).dev = s.dev := by
  rw [postConfirmation]
  dsimp only
  by_cases hblock : (!s.hasPeerSenderAuth || s.done42d idx) = true
  · rw [if_pos hblock]
    exact ⟨rfl, rfl⟩
  · rw [if_neg hblock]
    by_cases hfull : (!env.keyQueued) = true
    · rw [if_pos hfull]
      exact ⟨rfl, rfl⟩
    · rw [if_neg hfull]
      refine ⟨(acksOf_append _ _).trans ?_, rfl⟩
      cases env.subscribeQueued <;> exact List.append_nil _

/-- The reply-queue handler acknowledges on the queue it was called for, whatever comes of the
message. -/
theorem appHandleReplyQueueMsg_acks (idx : ℕ) (legacy : Bool) :
    acksOf (s.appHandleReplyQueueMsg msgId body env idx legacy).toNet =
        acksOf s.toNet ++ (if env.replyAckQueued then
          [⟨(s.dev.ackRecv idx legacy).id, msgId, (s.dev.ackRecv idx legacy).authKey⟩] else []) ∧
      RotationDevice.SameRecv s.dev (s.appHandleReplyQueueMsg msgId body env idx legacy).dev := by
  have hrecv := s.dev.appHandleReplyQueueMsg_recv idx legacy
    { env.reply with encLen := body.length, handshakeDone := s.done42d idx }
  obtain ⟨hacks, hdev⟩ := postConfirmation_acks { s with
    dev := (s.dev.appHandleReplyQueueMsg idx legacy
      { env.reply with encLen := body.length, handshakeDone := s.done42d idx }).1
    hasPeerSenderAuth := s.hasPeerSenderAuth || env.replyAuth } env idx legacy
  rw [appHandleReplyQueueMsg]
  dsimp only
  rw [appSendAck_acks, hacks, hdev, hrecv.ackRecv]
  refine ⟨rfl, ?_⟩
  rw [appSendAck]
  split_ifs <;> exact hdev ▸ hrecv

/-- The contact-queue handler acknowledges on the queue of the contact, on each of its ways. -/
theorem appHandleContactQueueMsg_acks {c : ℕ}
    (hlong : ¬ ((s.dev.contacts c).haveSrvDh = 0 ∨ body.length ≤ 16)) :
    acksOf (s.appHandleContactQueueMsg X msgId body env (some c)).toNet =
      acksOf s.toNet ++ (if env.contactAckQueued then
        [⟨(s.dev.contactRecv c).id, msgId, (s.dev.contactRecv c).authKey⟩] else []) := by
  have hrecv := s.dev.appHandleContactQueueMsg_recv X c
    { env.contact with encLen := body.length, handshakeDone := s.done42d c }
  rw [appHandleContactQueueMsg]
  dsimp only
  rw [if_neg hlong, appSendAck_acks, hrecv.contactRecv]

/-- The queue that is matched as a reply queue has the id. -/
theorem replyMatch_known {entity : List UInt8} {idx : ℕ} {legacy : Bool}
    (h : s.replyMatch entity = some (idx, legacy)) :
    s.dev.KnownQueue (s.dev.ackRecv idx legacy) ∧ (s.dev.ackRecv idx legacy).id = entity := by
  rw [replyMatch] at h
  cases hfind : s.dev.findReplyQueueByRcvId entity with
  | some i =>
    rw [hfind] at h
    obtain ⟨rfl, rfl⟩ := Prod.mk.inj (Option.some.inj h)
    exact s.dev.findReplyQueueByRcvId_known hfind
  | none =>
    rw [hfind] at h
    dsimp only at h
    split_ifs at h with hour
    obtain ⟨hpos, hlen, hid⟩ := hour
    obtain ⟨i, -, hpair⟩ := Option.map_eq_some_iff.1 h
    obtain ⟨rfl, rfl⟩ := Prod.mk.inj hpair
    refine ⟨.legacy hpos, ?_⟩
    change s.dev.ourQueue.rcvId.toList.take s.dev.ourQueue.rcvIdLen.toNat = entity
    rw [← hlen]
    exact hid

/-- The reply-queue handler answers where there is a queue for it, the body is long enough and
the ACK is queued. -/
theorem replyHandled_acks (entity : List UInt8) : ∃ acks,
    acksOf (s.replyHandled msgId body env entity).toNet = acksOf s.toNet ++ acks ∧
      AnswersWith s.dev (16 < body.length ∧ s.ReplyAnswers env entity) entity msgId acks ∧
      RotationDevice.SameRecv s.dev (s.replyHandled msgId body env entity).dev := by
  rw [replyHandled, ReplyAnswers]
  cases hmatch : s.replyMatch entity with
  | none =>
    refine ⟨[], (List.append_nil _).symm, Or.inl ⟨fun h => ?_, rfl⟩, .of_tables rfl rfl rfl⟩
    exact Bool.false_ne_true h.2.1
  | some reply =>
    obtain ⟨idx, legacy⟩ := reply
    dsimp only
    by_cases hlong : 16 < body.length
    · rw [if_pos hlong]
      obtain ⟨hknown, hid⟩ := s.replyMatch_known hmatch
      obtain ⟨hacks, hrecv⟩ := s.appHandleReplyQueueMsg_acks msgId body env idx legacy
      rw [hid] at hacks
      refine ⟨_, hacks, ?_, hrecv⟩
      cases env.replyAckQueued with
      | false => exact Or.inl ⟨fun h => Bool.false_ne_true h.2.2, rfl⟩
      | true => exact Or.inr ⟨⟨hlong, rfl, rfl⟩, _, hknown, hid, rfl⟩
    · rw [if_neg hlong]
      exact ⟨[], (List.append_nil _).symm, Or.inl ⟨fun h => hlong h.1, rfl⟩,
        .of_tables rfl rfl rfl⟩

/-- The contact-queue handler answers where there is a contact with the server's key, the body
is long enough and the ACK is queued. It works on what the other handler has left. -/
theorem contactHandled_acks {replied : AckTask} (hrecv : RotationDevice.SameRecv s.dev replied.dev)
    (entity : List UInt8) : ∃ acks,
      acksOf (replied.appHandleContactQueueMsg X msgId body env
          (s.dev.findContactByRecipientId entity)).toNet = acksOf replied.toNet ++ acks ∧
        AnswersWith s.dev (16 < body.length ∧ s.ContactAnswers env entity) entity msgId acks := by
  cases hfind : s.dev.findContactByRecipientId entity with
  | none =>
    refine ⟨[], (List.append_nil _).symm, Or.inl ⟨?_, rfl⟩⟩
    rintro ⟨-, ⟨c, hc, -⟩, -⟩
    rw [hfind] at hc
    cases hc
  | some c =>
    have hkey : s.ContactAnswers env entity ↔
        (s.dev.contacts c).haveSrvDh ≠ 0 ∧ env.contactAckQueued = true := by
      rw [ContactAnswers, hfind]
      simp
    by_cases hshort : (s.dev.contacts c).haveSrvDh = 0 ∨ body.length ≤ 16
    · refine ⟨[], ?_, Or.inl ⟨?_, rfl⟩⟩
      · rw [appHandleContactQueueMsg]
        dsimp only
        rw [hrecv.contacts, if_pos hshort, List.append_nil]
      · rintro ⟨hlong, hanswers⟩
        rcases hshort with hnone | hshort
        · exact (hkey.1 hanswers).1 hnone
        · exact absurd hlong (Nat.not_lt_of_le hshort)
    · obtain ⟨hknown, hid⟩ := s.dev.findContactByRecipientId_known hfind
      have hacks := replied.appHandleContactQueueMsg_acks X msgId body env
        (show ¬ ((replied.dev.contacts c).haveSrvDh = 0 ∨ body.length ≤ 16) by
          rwa [hrecv.contacts])
      rw [hrecv.contactRecv, hid] at hacks
      obtain ⟨hsrv, hlong⟩ := not_or.1 hshort
      refine ⟨_, hacks, ?_⟩
      rw [hkey]
      cases env.contactAckQueued with
      | false => exact Or.inl ⟨fun h => Bool.false_ne_true h.2.2, rfl⟩
      | true => exact Or.inr ⟨⟨Nat.lt_of_not_le hlong, hsrv, rfl⟩, _, hknown, hid, rfl⟩

/-- A MSG is acknowledged once by each handler that answers. -/
theorem handleMsg_acks (entity : List UInt8) : ∃ replyAcks contactAcks,
    acksOf (s.handleMsg X msgId body env entity).toNet =
        acksOf s.toNet ++ (replyAcks ++ contactAcks) ∧
      AnswersWith s.dev (16 < body.length ∧ s.ReplyAnswers env entity) entity msgId replyAcks ∧
      AnswersWith s.dev (16 < body.length ∧ s.ContactAnswers env entity) entity msgId
        contactAcks := by
  obtain ⟨replyAcks, hreply, hreplied, hrecv⟩ := s.replyHandled_acks msgId body env entity
  obtain ⟨contactAcks, hcontact, hanswered⟩ := s.contactHandled_acks X msgId body env hrecv entity
  refine ⟨replyAcks, contactAcks, ?_, hreplied, hanswered⟩
  rw [handleMsg, hcontact, hreply, List.append_assoc]

/-- So it is acknowledged exactly once when one of them answers. -/
theorem handleMsg_once (entity : List UInt8) :
    s.AckedOnce (s.handleMsg X msgId body env entity) entity msgId ↔
      16 < body.length ∧ Xor (s.ReplyAnswers env entity) (s.ContactAnswers env entity) := by
  obtain ⟨replyAcks, contactAcks, hacks, hreply, hcontact⟩ := s.handleMsg_acks X msgId body env entity
  have honce : s.AckedOnce (s.handleMsg X msgId body env entity) entity msgId ↔
      ∃ queue, s.dev.KnownQueue queue ∧ queue.id = entity ∧
        replyAcks ++ contactAcks = [⟨entity, msgId, queue.authKey⟩] := by
    simp only [AckedOnce, hacks, List.append_cancel_left_eq]
  rw [honce]
  rcases hreply with ⟨hno, rfl⟩ | ⟨⟨hlong, hyes⟩, queue, hknown, hid, rfl⟩
  · rcases hcontact with ⟨hno', rfl⟩ | ⟨⟨hlong, hyes'⟩, queue', hknown', hid', rfl⟩
    · constructor
      · rintro ⟨queue, -, -, h⟩
        cases h
      · rintro ⟨hlong, ⟨h, -⟩ | ⟨h, -⟩⟩
        · exact absurd ⟨hlong, h⟩ hno
        · exact absurd ⟨hlong, h⟩ hno'
    · exact ⟨fun _ => ⟨hlong, Or.inr ⟨hyes', fun h => hno ⟨hlong, h⟩⟩⟩,
        fun _ => ⟨queue', hknown', hid', rfl⟩⟩
  · rcases hcontact with ⟨hno', rfl⟩ | ⟨⟨-, hyes'⟩, queue', -, -, rfl⟩
    · exact ⟨fun _ => ⟨hlong, Or.inl ⟨hyes, fun h => hno' ⟨hlong, h⟩⟩⟩,
        fun _ => ⟨queue, hknown, hid, rfl⟩⟩
    · constructor
      · rintro ⟨_, -, -, h⟩
        exact absurd (congrArg List.length h) (by simp)
      · rintro ⟨-, ⟨-, h⟩ | ⟨-, h⟩⟩
        · exact absurd hyes' h
        · exact absurd hyes h

/-- A MSG on a known queue is acknowledged exactly once, on that queue, when its id is not
longer than 24 bytes, its body is longer than a MAC, and one of the two handlers answers and
not both. -/
theorem msg_acked_once_iff {t : Transmission} {msgId body : List UInt8} {queue : RecvQueue}
    (hmsg : t.command = .msg msgId body) (hknown : s.dev.KnownQueue queue)
    (hentity : t.entity = queue.id) :
    s.AckedOnce (s.appRun X env (batchContent [t])) t.entity msgId ↔
      s.OneAnswer msgId body env t.entity := by
  have hrun : s.appRun X env (batchContent [t]) =
      s.handleMsg X (msgId.take 24) (msgId.drop 24 ++ body) env t.entity := by
    rw [appRun, appDispatch_msg hmsg (hentity ▸ hknown.id_length)]
  rw [hrun, OneAnswer]
  by_cases hid : msgId.length ≤ 24
  · rw [List.take_of_length_le hid, List.drop_of_length_le hid, List.nil_append, handleMsg_once]
    exact ⟨fun h => ⟨hid, h⟩, And.right⟩
  · refine ⟨fun h => ?_, fun h => absurd h.1 hid⟩
    obtain ⟨replyAcks, contactAcks, hacks, hreply, hcontact⟩ :=
      s.handleMsg_acks X (msgId.take 24) (msgId.drop 24 ++ body) env t.entity
    obtain ⟨_, -, -, hone⟩ := h
    rw [hacks, List.append_cancel_left_eq] at hone
    -- The one ACK would name what is left of the id.
    have hmem : ⟨t.entity, msgId, _⟩ ∈ replyAcks ++ contactAcks := hone ▸ List.mem_singleton_self _
    have htake : msgId = msgId.take 24 := by
      rcases List.mem_append.1 hmem with hmem | hmem
      · exact hreply.msgId_eq _ hmem
      · exact hcontact.msgId_eq _ hmem
    have hlen := congrArg List.length htake
    rw [List.length_take] at hlen
    omega

end AckTask

/-! ### A short body -/

/-- A task with one contact, and nothing in the way of an ACK. -/
def ackSample : AckTask where
  dev := { sampleRotation with
    contacts := fun i =>
      if i = 0 then
        { Contact.zero with
          recipientId := filled 24 20, recipientIdLen := 24, haveSrvDh := 1, active := 1 }
      else .zero }
  handshakeContact := none
  done42d := fun _ => true
  hasPeerSenderAuth := false
  toNet := []

/-- Everything that is sent to the network task is queued. -/
def ackEnv : AckEnv where
  reply := sampleMsg sampleChat false
  contact := sampleMsg sampleChat false
  replyAuth := false
  contactAuth := false
  keyQueued := true
  subscribeQueued := true
  replyAckQueued := true
  contactAckQueued := true

/-- A MSG for the contact with a body of zeros. -/
def msgOfLength (n : ℕ) : Transmission where
  auth := []
  corr := []
  entity := List.replicate 24 20
  command := .msg [1, 2, 3] (List.replicate n 0)
  auth_lt := by decide
  corr_lt := by decide
  entity_lt := by decide
  msgId_lt := by
    intro msgId body h
    cases h
    decide

namespace AckTask

/-- The queue of the contact is known. -/
theorem ackSample_known : ackSample.dev.KnownQueue (ackSample.dev.contactRecv 0) :=
  .contact 0 (by decide) (by decide)

/-- A MSG with 17 bytes of body is acknowledged once. -/
theorem msg_acked_once_iff_long :
    ackSample.AckedOnce (ackSample.appRun sampleSodium ackEnv (batchContent [msgOfLength 17]))
      (msgOfLength 17).entity [1, 2, 3] :=
  (msg_acked_once_iff sampleSodium ackSample ackEnv rfl ackSample_known (by decide)).mpr
    ⟨by decide, by decide,
      Or.inr ⟨⟨⟨0, by decide, by decide⟩, rfl⟩, fun h => absurd h.1 (by decide)⟩⟩

/-- A MSG with 16 bytes of body is not acknowledged at all. -/
theorem short_msg_not_acked :
    ¬ ∀ (X : Sodium) (s : AckTask) (env : AckEnv) (t : Transmission) (msgId body : List UInt8)
        (queue : RecvQueue), t.command = .msg msgId body → s.dev.KnownQueue queue →
        t.entity = queue.id → s.AckedOnce (s.appRun X env (batchContent [t])) t.entity msgId := by
  intro h
  obtain ⟨_, -, -, hacks⟩ := h sampleSodium ackSample ackEnv (msgOfLength 16) _ _ _ rfl
    ackSample_known (by decide)
  have hnone : acksOf (ackSample.appRun sampleSodium ackEnv (batchContent [msgOfLength 16])).toNet =
      [] := by decide
  rw [hnone] at hacks
  cases hacks

end AckTask

end SimpleGo
