import SimpleGo.Rotation.Switch

/-!
# The rotation loop of the app task

One pass of `app_rotation_step`: it takes the contacts in order, works on the first one that
has something to do, and makes the live switch when every contact has been sent QUSE. What
the servers, the connections and the random generator answer is part of the step's input.
The other steps of the system are added contacts, confirmations, messages and start-ups.
-/

namespace SimpleGo

open Lib

/-- What became of a message to a contact: not written, written without the server's OK, or
acknowledged. -/
inductive SendResult where
  | failed | unconfirmed | sent
  deriving DecidableEq

/-- What the environment decides while one contact is worked on. -/
structure ContactEnv where
  mainKeys : NewQueueKeys
  rqKeys : NewQueueKeys
  /-- The connection to the target server is there or can be made. -/
  connects : Bool
  /-- The answers to NEW, none when it fails. -/
  mainIds : Option NewQueueIds
  rqIds : Option NewQueueIds
  /-- `peer_load_state` finds the contact's peer queue. -/
  peerLoads : Bool
  /-- The server takes the KEY command. -/
  keyAccepted : Bool
  send : SendResult

namespace RotationDevice

variable (X : Sodium) (dev : RotationDevice)

/-- Note an event. -/
def note (event : RotationEvent) : RotationDevice := { dev with history := event :: dev.history }

/-- `app_rotation_send_new` with the answer it parses: ids are at most 24 bytes long. -/
def answeredIds (ids : Option NewQueueIds) : Option NewQueueIds :=
  ids.filter fun ids => ids.rcvIdLen ≤ 24 && ids.sndIdLen ≤ 24

/-- ROT_IDLE: keys, then NEW for both queues. -/
def stepCreate (idx : ℕ) (env : ContactEnv) : RotationDevice :=
  let keyed := dev.rotationCreateQueueForContact X idx env.mainKeys env.rqKeys
  if !env.connects then keyed
  else
    match answeredIds env.mainIds with
    | none => keyed
    | some ids =>
      let main := keyed.rotationCompleteQueueCreation X idx ids
      if !main.2 then main.1
      else
        match answeredIds env.rqIds with
        | none => main.1
        | some ids => (main.1.rotationCompleteRqCreation X idx ids).1

/-- A message that reaches the connection is noted, and marked when it is acknowledged. -/
def sendMarked (result : SendResult) (event : RotationEvent) (mark : RotationDevice → RotationDevice) :
    RotationDevice :=
  match result with
  | .failed => dev
  | .unconfirmed => dev.note event
  | .sent => mark (dev.note event)

/-- ROT_QUEUE_CREATED: QADD. The flag says that the pass ends with this contact. -/
def stepQadd (idx : ℕ) (env : ContactEnv) : RotationDevice × Bool :=
  if !env.peerLoads then (dev.rotationMarkQaddSent idx, false)
  else
    match dev.rotationBuildQaddPayload idx 512 with
    | none => (dev, true)
    | some payload =>
      (dev.sendMarked env.send (.qaddSent idx payload) fun d => d.rotationMarkQaddSent idx, true)

/-- Phase 2b, from ROT_KEY_SENT: QUSE. Without a peer queue it is only marked. -/
def stepQuse (idx : ℕ) (env : ContactEnv) : RotationDevice × Bool :=
  if !env.peerLoads then (dev.rotationMarkQuseSent idx, false)
  else
    match dev.rotationBuildQusePayload idx 128 with
    | none => (dev, true)
    | some payload =>
      (dev.sendMarked env.send (.quseSent idx (dev.record idx) payload) fun d =>
        d.rotationMarkQuseSent idx, true)

/-- ROT_QKEY_RECEIVED: KEY on the new queue, then QUSE. -/
def stepKey (idx : ℕ) (env : ContactEnv) : RotationDevice × Bool :=
  if !env.connects || !(dev.record idx).mainPeer.hasPeerSenderKey || !env.keyAccepted then
    (dev, true)
  else (dev.rotationMarkKeySent idx).stepQuse idx env

/-- The work on one contact. -/
def stepContact (idx : ℕ) (env : ContactEnv) : RotationDevice × Bool :=
  match dev.rotationGetContactState idx with
  | .idle => (dev.stepCreate X idx env, true)
  | .queueCreated => dev.stepQadd idx env
  | .qkeyReceived => dev.stepKey idx env
  | .keySent => dev.stepQuse idx env
  | _ => (dev, false)

/-- The loop over the active contacts. -/
def stepContacts (env : ℕ → ContactEnv) : RotationDevice → List ℕ → RotationDevice × Bool
  | dev, [] => (dev, false)
  | dev, idx :: rest =>
    let stepped := dev.stepContact X idx (env idx)
    if stepped.2 then stepped else stepContacts env stepped.1 rest

/-- Every active contact has been sent QUSE, and there is one. -/
def allReady : Bool :=
  !dev.activeSlots.isEmpty &&
    dev.activeSlots.all fun i =>
      dev.rotationGetContactState i == .quseSent || dev.rotationGetContactState i == .done

/-- The end of a pass: the live switch, once, unless our queues are already on the target. -/
def liveSwitch : RotationDevice :=
  if dev.allReady && !dev.completeLogged then
    let logged := { dev with completeLogged := true }
    if logged.ctx.active && logged.onTarget then logged else logged.rotationComplete
  else dev

/-- `app_rotation_step`. -/
def appRotationStep (env : ℕ → ContactEnv) : RotationDevice :=
  if !dev.ctx.active then dev
  else
    let stepped := stepContacts X env dev dev.activeSlots
    if stepped.2 then stepped.1 else stepped.1.liveSwitch

/-! ### Contacts and confirmations -/

/-- The reply queue that `reply_queue_create` leaves: zeroed, keys, and the server's answer. -/
def createdReplyQueue (keys : NewQueueKeys) (ids : Option NewQueueIds) : ReplyQueue :=
  let keyed := { ReplyQueue.zero with
    rcvAuthPublic := keys.authPublic
    rcvAuthPrivate := keys.authPrivate
    rcvDhPublic := X.boxPublic keys.dhPrivate
    rcvDhPrivate := keys.dhPrivate
    e2ePublic := X.boxPublic keys.e2ePrivate
    e2ePrivate := keys.e2ePrivate }
  match ids with
  | none => keyed
  | some ids =>
    let filled := { keyed with
      rcvId := copyId (zeroBytes 24) ids.rcvId ids.rcvIdLen.toNat
      rcvIdLen := (min ids.rcvIdLen.toNat 24 : ℕ)
      sndId := copyId (zeroBytes 24) ids.sndId ids.sndIdLen.toNat
      sndIdLen := (min ids.sndIdLen.toNat 24 : ℕ)
      srvDhPublic := ids.srvDhPublic }
    match X.beforenm ids.srvDhPublic keys.dhPrivate with
    | none => filled
    | some secret => { filled with sharedSecret := secret, valid := true }

/-- The save of a new contact and of its reply queue. -/
def saveNewContact (slot : ℕ) : RotationDevice :=
  let saved := dev.write (.cnt slot) (some (.contact (dev.contacts slot)))
  if (dev.replyQueues slot).valid then
    saved.write (.rq slot) (some (.replyQueue (dev.replyQueues slot)))
  else saved

/-- A contact is added to the first free slot, with its reply queue. -/
def addContact (keys : ContactDevice.ContactKeys) (ids : ContactDevice.QueueIds)
    (rqKeys : NewQueueKeys) (rqIds : Option NewQueueIds) : RotationDevice :=
  match (List.range maxContacts).find? fun i => !(dev.contacts i).isActive with
  | none => dev
  | some slot =>
    ({ dev with
      contacts := Function.update dev.contacts slot (ContactDevice.createdContact keys ids)
      replyQueues := Function.update dev.replyQueues slot (createdReplyQueue X rqKeys rqIds)
      history := .added slot :: dev.history }).saveNewContact slot

/-- `queue_encode_info`: the queue of the device. -/
def queueEncodeInfo : Option (List UInt8) :=
  if dev.ourQueue.valid then
    some ([0, 4] ++ encodeSmpServer dev.ourQueue.serverHost dev.ourQueue.serverPort
      dev.ourQueue.serverKeyHash ++
      encodeSenderId dev.ourQueue.sndId dev.ourQueue.sndIdLen.toNat ++
      dhPublicKeyField dev.ourQueue.e2ePublic)
  else none

/-- The queue info of a confirmation: the contact's reply queue, and the queue of the device
for slot 0 without one, or where the reply queue cannot be encoded. -/
def confirmationInfo (idx : ℕ) : Option (List UInt8) :=
  if (dev.replyQueues idx).valid then
    (dev.replyQueueEncodeInfo idx 510).or dev.queueEncodeInfo
  else if idx = 0 then dev.queueEncodeInfo
  else none

/-- `send_agent_confirmation` tells a contact where to send. -/
def sendAgentConfirmation (idx : ℕ) : RotationDevice :=
  if idx < maxContacts ∧ (dev.contacts idx).isActive then
    match dev.confirmationInfo idx with
    | none => dev
    | some info => dev.note (.confirmationSent idx info)
  else dev

end RotationDevice

end SimpleGo
