import SimpleGo.Contacts.Device
import SimpleGo.Rotation.Records

/-!
# The rotation module

The functions of the rotation module on the state they share with the contact tables: the
context, the records in RAM, the credentials of the contacts and of the device's own queue,
and NVS. NVS is kept as the list of its writes, so that a power loss leaves a prefix of it.
`history` is what happened so far, latest first; no function reads it.
-/

namespace SimpleGo

open Lib

/-- The NVS entries a rotation touches. -/
inductive FlashKey where
  | rotCtx
  | rotC (i : ℕ)
  | cqE2ePeer
  | cnt (i : ℕ)
  | rq (i : ℕ)
  | queueOur
  | activeServer
  deriving DecidableEq

/-- What is stored under them. -/
inductive FlashBlob where
  | context (ctx : RotationContext)
  | record (rd : RotationContactData)
  | peerKey (key : Bytes 32)
  | contact (c : Contact)
  | replyQueue (q : ReplyQueue)
  | ourQueue (q : OurQueue)
  | index (i : UInt8)

/-- What a contact has been told, and what was done with its new queues. -/
inductive RotationEvent where
  | started
  | added (i : ℕ)
  | confirmationSent (i : ℕ) (info : List UInt8)
  | qaddSent (i : ℕ) (payload : List UInt8)
  | quseSent (i : ℕ) (rd : RotationContactData) (payload : List UInt8)
  | migrated (i : ℕ)

/-- X25519 as libsodium gives it: the public key of a private key, and the key two sides
share, which is refused for a bad point. -/
structure Sodium where
  boxPublic : Bytes 32 → Bytes 32
  beforenm : Bytes 32 → Bytes 32 → Option (Bytes 32)

/-- The keys drawn for one queue. -/
structure NewQueueKeys where
  authPublic : Bytes 32
  authPrivate : Bytes 64
  dhPrivate : Bytes 32
  e2ePrivate : Bytes 32

/-- The fields of the server's `IDS` answer for one queue. -/
structure NewQueueIds where
  rcvId : Bytes 24
  rcvIdLen : UInt8
  sndId : Bytes 24
  sndIdLen : UInt8
  srvDhPublic : Bytes 32

/-- The device as the rotation sees it. -/
structure RotationDevice where
  contacts : ℕ → Contact
  replyQueues : ℕ → ReplyQueue
  ourQueue : OurQueue
  serverCount : ℕ
  activeServer : UInt8
  ctx : RotationContext
  /-- `s_contacts`, none while it is not allocated. -/
  records : Option (ℕ → RotationContactData)
  rqSubsNeeded : Bool
  cqPeerE2e : Option (Bytes 32)
  completeLogged : Bool
  flash : List (FlashKey × Option FlashBlob)
  history : List RotationEvent

/-- `memcpy(dst, src, len)` between two ids. -/
def copyId (dst src : Bytes 24) (len : ℕ) : Bytes 24 :=
  Vector.ofFn fun i => if i.val < len then src[i] else dst[i]

/-- The keypairs of a new queue. -/
def NewQueue.generate (X : Sodium) (q : NewQueue) (keys : NewQueueKeys) : NewQueue :=
  { q with
    rcvAuthPublic := keys.authPublic
    rcvAuthPrivate := keys.authPrivate
    rcvDhPublic := X.boxPublic keys.dhPrivate
    rcvDhPrivate := keys.dhPrivate
    e2ePublic := X.boxPublic keys.e2ePrivate
    e2ePrivate := keys.e2ePrivate }

/-- The server's answer for a new queue. -/
def NewQueue.fill (q : NewQueue) (ids : NewQueueIds) : NewQueue :=
  { q with
    rcvId := copyId q.rcvId ids.rcvId ids.rcvIdLen.toNat
    rcvIdLen := ids.rcvIdLen
    sndId := copyId q.sndId ids.sndId ids.sndIdLen.toNat
    sndIdLen := ids.sndIdLen
    srvDhPublic := ids.srvDhPublic }

namespace RotationDevice

variable (dev : RotationDevice)

/-! ### NVS -/

/-- The stored entries. -/
def nvs : Store FlashKey FlashBlob := Store.applyAll (fun _ => none) dev.flash

/-- One write or deletion. -/
def write (key : FlashKey) (blob : Option FlashBlob) : RotationDevice :=
  { dev with flash := dev.flash ++ [(key, blob)] }

/-- `save_context`. -/
def saveContext : RotationDevice := dev.write .rotCtx (some (.context dev.ctx))

/-- `save_contact_data`. -/
def saveContactData (idx : ℕ) : RotationDevice :=
  match dev.records with
  | none => dev
  | some rs => if idx < maxContacts then dev.write (.rotC idx) (some (.record (rs idx))) else dev

/-- The deletions of `clear_all_rotation_nvs`: the context first. -/
def clearedKeys : List FlashKey := .rotCtx :: (List.range maxContacts).map .rotC

/-- `clear_all_rotation_nvs`. -/
def clearAllRotationNvs : RotationDevice :=
  { dev with flash := dev.flash ++ clearedKeys.map fun key => (key, none) }

/-! ### Reading the state -/

/-- `rotation_get_contact_state`. -/
def rotationGetContactState (idx : ℕ) : RotationContactState :=
  match dev.records with
  | none => .idle
  | some rs => if idx < maxContacts then (rs idx).state else .idle

/-- The record of a contact, zeroed while there is none. -/
def record (idx : ℕ) : RotationContactData :=
  match dev.records with
  | none => .zero
  | some rs => rs idx

/-- The slots in use. -/
def activeSlots : List ℕ := (List.range maxContacts).filter fun i => (dev.contacts i).isActive

/-- `strcmp(our_queue.server_host, target) == 0`. -/
def onTarget : Bool := cString dev.ourQueue.serverHost == cString dev.ctx.targetHost

/-! ### Starting -/

/-- The context of a new rotation. -/
def startedContext (idx : UInt8) (srv : SmpServer) : RotationContext where
  active := true
  targetServerIdx := idx
  targetHost := strncpy 63 (cString srv.host)
  targetPort := srv.port
  targetKeyHash := srv.keyHash
  contactsTotal := UInt8.ofNat dev.activeSlots.length
  contactsDone := 0
  oldHost := strncpy 63 (cString dev.ourQueue.serverHost)
  oldPort := UInt16.ofInt dev.ourQueue.serverPort

/-- `smp_servers_set_active`. -/
def smpServersSetActive (idx : UInt8) : RotationDevice :=
  if idx.toNat < dev.serverCount then
    { dev with activeServer := idx }.write .activeServer (some (.index idx))
  else dev

/-- `rotation_start`; `srv` is the entry `smp_servers_get` finds. -/
def rotationStart (idx : UInt8) (srv : SmpServer) : RotationDevice × Bool :=
  if dev.ctx.active ∨ dev.serverCount ≤ idx.toNat then (dev, false)
  else if dev.activeSlots = [] then (dev.smpServersSetActive idx, true)
  else
    ({ dev with
      ctx := dev.startedContext idx srv
      records := some fun _ => .zero
      completeLogged := false
      history := .started :: dev.history }.saveContext, true)

/-! ### One contact -/

/-- Change a record in RAM. -/
def setRecord (idx : ℕ) (rd : RotationContactData) : RotationDevice :=
  { dev with records := dev.records.map fun rs => Function.update rs idx rd }

/-- Change a record and save it. -/
def updateRecord (idx : ℕ) (rd : RotationContactData) : RotationDevice :=
  (dev.setRecord idx rd).saveContactData idx

/-- `rotation_create_queue_for_contact`. -/
def rotationCreateQueueForContact (X : Sodium) (idx : ℕ) (mainKeys rqKeys : NewQueueKeys) :
    RotationDevice :=
  if dev.ctx.active ∧ idx < maxContacts ∧ (dev.contacts idx).isActive then
    let rd := dev.record idx
    dev.updateRecord idx { rd with
      state := .idle
      main := rd.main.generate X mainKeys
      rq := rd.rq.generate X rqKeys
      rqCreated := false }
  else dev

/-- `rotation_complete_queue_creation`. -/
def rotationCompleteQueueCreation (X : Sodium) (idx : ℕ) (ids : NewQueueIds) :
    RotationDevice × Bool :=
  if maxContacts ≤ idx then (dev, false)
  else
    let rd := dev.record idx
    let q := rd.main.fill ids
    match X.beforenm q.srvDhPublic q.rcvDhPrivate with
    | none => (dev.updateRecord idx { rd with main := q, state := .error }, false)
    | some secret =>
      (dev.updateRecord idx { rd with
        main := { q with sharedSecret := secret }
        state := if rd.rqCreated then .queueCreated else rd.state }, true)

/-- `rotation_complete_rq_creation`. -/
def rotationCompleteRqCreation (X : Sodium) (idx : ℕ) (ids : NewQueueIds) :
    RotationDevice × Bool :=
  if maxContacts ≤ idx then (dev, false)
  else
    let rd := dev.record idx
    let q := rd.rq.fill ids
    match X.beforenm q.srvDhPublic q.rcvDhPrivate with
    | none => (dev.updateRecord idx { rd with rq := q, state := .error }, false)
    | some secret =>
      (dev.updateRecord idx { rd with
        rq := { q with sharedSecret := secret }
        rqCreated := true
        state := if 0 < rd.main.sndIdLen then .queueCreated else rd.state }, true)

/-- The marks: a state, saved. -/
def markState (idx : ℕ) (state : RotationContactState) : RotationDevice :=
  if maxContacts ≤ idx then dev else dev.updateRecord idx { dev.record idx with state := state }

/-- `rotation_mark_qadd_sent`. -/
def rotationMarkQaddSent (idx : ℕ) : RotationDevice := dev.markState idx .qaddSent

/-- `rotation_mark_key_sent`. -/
def rotationMarkKeySent (idx : ℕ) : RotationDevice := dev.markState idx .keySent

/-- `rotation_mark_quse_sent`. -/
def rotationMarkQuseSent (idx : ℕ) : RotationDevice := dev.markState idx .quseSent

/-! ### Payloads -/

/-- Append to a buffer of `size` bytes, or give up. -/
def putChunk (size : ℕ) (buf chunk : List UInt8) : Option (List UInt8) :=
  if size < buf.length + chunk.length then none else some (buf ++ chunk)

/-- `X25519_SPKI_HDR`. -/
def x25519SpkiHdr : List UInt8 :=
  [0x30, 0x2a, 0x30, 0x05, 0x06, 0x03, 0x2b, 0x65, 0x6e, 0x03, 0x21, 0x00]

/-- `clientVRange`: versions 1 to 4. -/
def clientVRange : List UInt8 := [0, 1, 0, 4]

/-- A public key behind the length of its SPKI form. -/
def dhPublicKeyField (key : Bytes 32) : List UInt8 := 44 :: (x25519SpkiHdr ++ key.toList)

/-- The target server, encoded. -/
def targetField : List UInt8 :=
  encodeSmpServer dev.ctx.targetHost dev.ctx.targetPort.toNat dev.ctx.targetKeyHash

/-- The server of our queues, encoded; its port is converted to 16 bits. -/
def oldServerField : List UInt8 :=
  encodeSmpServer dev.ourQueue.serverHost (dev.ourQueue.serverPort % 65536)
    dev.ourQueue.serverKeyHash

/-- The first entry of a QADD: the new main queue, and the queue it replaces. -/
def qaddMainEntry (idx : ℕ) : List (List UInt8) :=
  let rd := dev.record idx
  let oldRq := dev.replyQueues idx
  [clientVRange, dev.targetField, encodeSenderId rd.main.sndId rd.main.sndIdLen.toNat,
    dhPublicKeyField rd.main.e2ePublic, [0x31], dev.oldServerField,
    encodeSenderId oldRq.sndId oldRq.sndIdLen.toNat]

/-- The second entry: the new reply queue, and the queue of the invitation. -/
def qaddRqEntry (idx : ℕ) : List (List UInt8) :=
  let rd := dev.record idx
  [clientVRange, dev.targetField, encodeSenderId rd.rq.sndId rd.rq.sndIdLen.toNat,
    dhPublicKeyField rd.rq.e2ePublic, [0x31], dev.oldServerField]

/-- `rotation_build_qadd_payload`. Every error is the same `-1`; the empty id at the very end
is written without a length check. -/
def rotationBuildQaddPayload (idx size : ℕ) : Option (List UInt8) :=
  if maxContacts ≤ idx ∨ (dev.record idx).state ≠ .queueCreated ∨ dev.ourQueue.valid = false ∨
      (dev.replyQueues idx).valid = false then none
  else
    ([[0x51, 0x41], [2]] ++ dev.qaddMainEntry idx ++ dev.qaddRqEntry idx).foldlM (putChunk size) []
      >>= fun buf =>
        if 0 < dev.ourQueue.sndIdLen then
          putChunk size buf (encodeSenderId dev.ourQueue.sndId dev.ourQueue.sndIdLen.toNat)
        else some (buf ++ [0])

/-- `rotation_build_quse_payload`. -/
def rotationBuildQusePayload (idx size : ℕ) : Option (List UInt8) :=
  if maxContacts ≤ idx then none
  else
    let rd := dev.record idx
    [[0x51, 0x55], [1], dev.targetField, encodeSenderId rd.main.sndId rd.main.sndIdLen.toNat,
      [0x54]].foldlM (putChunk size) []

/-- `reply_queue_encode_info`; every length check but the last one keeps a byte free. -/
def replyQueueEncodeInfo (slot maxLen : ℕ) : Option (List UInt8) :=
  let q := dev.replyQueues slot
  if maxContacts ≤ slot ∨ q.valid = false ∨ dev.ourQueue.valid = false then none
  else
    [[0, 4], encodeSmpServer dev.ourQueue.serverHost dev.ourQueue.serverPort
      dev.ourQueue.serverKeyHash, encodeSenderId q.sndId q.sndIdLen.toNat].foldlM
        (putChunk (maxLen - 1)) []
      >>= fun buf => putChunk maxLen buf (dhPublicKeyField q.e2ePublic)

end RotationDevice

end SimpleGo
