import SimpleGo.Agent.Messages
import SimpleGo.Rotation.AppTask

/-!
# Messages that arrive while queues are rotated

The two handlers of a MSG: on a contact's own queue and on its reply queue. Each gives the
device afterwards and what was done with the message, in order. The outcome of a decryption
is an input; which key it is tried with is not. The handshake that may follow a message on
the reply queue is left out.
-/

namespace SimpleGo

open Lib

/-- What decides the fate of one MSG besides the device. -/
structure MsgEnv extends AgentEnv where
  /-- The length of the encrypted body. -/
  encLen : ℕ
  /-- `is_42d_done`. -/
  handshakeDone : Bool
  /-- `smp_e2e_decrypt_reply_message_ex` with a shared secret and an E2E key. -/
  e2e : Bytes 32 → Bytes 32 → Option Plaintext
  /-- The peer's E2E key that call finds in the message. -/
  newPeer : Option (Bytes 32)
  /-- The buffer of the server layer can be allocated. -/
  plainAlloc : Bool
  /-- What the contact sent is its QTEST. -/
  peerQtest : Bool

namespace RotationDevice

variable (X : Sodium) (dev : RotationDevice)

/-- An effect on the rotation. -/
def applyEffect (idx : ℕ) : MsgEffect → RotationDevice
  | .qkey data => if dev.ctx.active then dev.rotationHandleQkey idx data else dev
  | .qtest =>
    if dev.ctx.active ∧ dev.rotationGetContactState idx = .quseSent then
      dev.rotationMarkQtestReceived idx
    else dev
  | _ => dev

/-- The effects of a message, in order. -/
def applyEffects (idx : ℕ) (effects : List MsgEffect) : RotationDevice :=
  effects.foldl (fun d effect => d.applyEffect idx effect) dev

/-- The id an ACK names for a contact's queue. -/
def contactQueueId (idx : ℕ) : List UInt8 :=
  (dev.contacts idx).recipientId.toList.take (dev.contacts idx).recipientIdLen.toNat

/-- What is left of a message when the pipeline has not taken it: the server layer alone. -/
def fallbackEffects (idx : ℕ) (env : MsgEnv) : List MsgEffect :=
  (if env.plainAlloc then [.smpDecrypt] else []) ++ [.ack (dev.contactQueueId idx)]

/-- `app_handle_contact_queue_msg` for a MSG on the queue of a contact, as to its effects
once it is not taken for a QTEST. -/
def contactQueueEffects (idx : ℕ) (env : MsgEnv) : List MsgEffect :=
  let c := dev.contacts idx
  if !env.handshakeDone then dev.fallbackEffects idx env
  else
    match X.beforenm c.srvDhPublic c.rcvDhSecret with
    | none => dev.fallbackEffects idx env
    | some shared =>
      .e2eDecrypt dev.ourQueue.e2ePrivate ::
        match env.e2e shared dev.ourQueue.e2ePrivate with
        | none => dev.fallbackEffects idx env
        | some plain =>
          smpAgentProcessMessage plain env.toAgentEnv ++ [.ack (dev.contactQueueId idx)]

/-- Whether `app_handle_contact_queue_msg` takes a MSG for the QTEST of the contact. -/
def takesForQtest (idx : ℕ) : Bool :=
  dev.ctx.active && decide (idx < maxContacts) && dev.rotationGetContactState idx == .quseSent

/-- `app_handle_contact_queue_msg`. -/
def appHandleContactQueueMsg (idx : ℕ) (env : MsgEnv) : RotationDevice × List MsgEffect :=
  if (dev.contacts idx).haveSrvDh = 0 ∨ env.encLen ≤ 16 then (dev, [])
  else if dev.takesForQtest idx then
    (dev.rotationMarkQtestReceived idx, [.ack (dev.contactQueueId idx)])
  else
    let effects := dev.contactQueueEffects X idx env
    (dev.applyEffects idx effects, effects)

/-- The peer's E2E key of a reply queue is taken from a message. -/
def learnPeerKey (idx : ℕ) (newPeer : Option (Bytes 32)) : RotationDevice :=
  match newPeer with
  | none => dev
  | some key =>
    let q := { dev.replyQueues idx with e2ePeerPublic := key, e2ePeerValid := true }
    { dev with replyQueues := Function.update dev.replyQueues idx q }.write (.rq idx)
      (some (.replyQueue q))

/-- The keys a MSG on a reply queue is decrypted with: its own, or those of the device's queue
for the legacy reply queue. -/
def replyQueueSecrets (idx : ℕ) (legacy : Bool) : Bytes 32 × Bytes 32 :=
  let q := dev.replyQueues idx
  if !legacy && q.valid then (q.sharedSecret, q.e2ePrivate)
  else (dev.ourQueue.sharedSecret, dev.ourQueue.e2ePrivate)

/-- The id an ACK names for a reply queue. -/
def replyQueueId (idx : ℕ) (legacy : Bool) : List UInt8 :=
  let q := dev.replyQueues idx
  if !legacy && q.valid then q.rcvId.toList.take q.rcvIdLen.toNat
  else dev.ourQueue.rcvId.toList.take dev.ourQueue.rcvIdLen.toNat

/-- `app_handle_reply_queue_msg`. -/
def appHandleReplyQueueMsg (idx : ℕ) (legacy : Bool) (env : MsgEnv) :
    RotationDevice × List MsgEffect :=
  let secrets := dev.replyQueueSecrets idx legacy
  let learned := if !legacy && (dev.replyQueues idx).valid then dev.learnPeerKey idx env.newPeer
    else dev
  let processed := match env.e2e secrets.1 secrets.2 with
    | none => []
    | some plain => smpAgentProcessMessage plain env.toAgentEnv
  let effects := .e2eDecrypt secrets.2 :: (processed ++ [.ack (dev.replyQueueId idx legacy)])
  (learned.applyEffects idx effects, effects)

end RotationDevice

/-- A step of the system around the rotation. -/
inductive RotationLabel where
  | start (idx : UInt8) (srv : SmpServer)
  | appStep (env : ℕ → ContactEnv)
  | contactMsg (idx : ℕ) (env : MsgEnv)
  | replyMsg (idx : ℕ) (legacy : Bool) (env : MsgEnv)
  | addContact (keys : ContactDevice.ContactKeys) (ids : ContactDevice.QueueIds)
      (rqKeys : NewQueueKeys) (rqIds : Option NewQueueIds)
  | confirm (idx : ℕ)
  | abort
  | reboot (created : OurQueue)

/-- A device without contacts, after its first start with this queue. -/
def RotationDevice.fresh (ourQueue : OurQueue) (serverCount : ℕ) : RotationDevice where
  contacts := fun _ => .zero
  replyQueues := fun _ => .zero
  ourQueue := ourQueue
  serverCount := serverCount
  activeServer := 0
  ctx := .zero
  records := some fun _ => .zero
  rqSubsNeeded := false
  cqPeerE2e := none
  completeLogged := false
  flash := [(.queueOur, some (.ourQueue ourQueue))]
  history := []

/-- A MSG is given to the handler of a contact in use; one on a reply queue is given to it
when it is longer than a MAC. -/
def RotationDevice.handleMsg (X : Sodium) (dev : RotationDevice) :
    RotationLabel → RotationDevice × List MsgEffect
  | .contactMsg idx env =>
    if idx < maxContacts ∧ (dev.contacts idx).isActive then dev.appHandleContactQueueMsg X idx env
    else (dev, [])
  | .replyMsg idx legacy env =>
    if idx < maxContacts ∧ 16 < env.encLen then dev.appHandleReplyQueueMsg idx legacy env
    else (dev, [])
  | _ => (dev, [])

/-- The device after a step. -/
def RotationDevice.step (X : Sodium) (dev : RotationDevice) : RotationLabel → RotationDevice
  | .start idx srv => (dev.rotationStart idx srv).1
  | .appStep env => dev.appRotationStep X env
  | .contactMsg idx env => (dev.handleMsg X (.contactMsg idx env)).1
  | .replyMsg idx legacy env => (dev.handleMsg X (.replyMsg idx legacy env)).1
  | .addContact keys ids rqKeys rqIds => dev.addContact X keys ids rqKeys rqIds
  | .confirm idx => dev.sendAgentConfirmation idx
  | .abort => dev.rotationAbort
  | .reboot created => dev.boot created

end SimpleGo
