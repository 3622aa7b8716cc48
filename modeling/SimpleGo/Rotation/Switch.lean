import SimpleGo.Rotation.Device

/-!
# Answers, the live switch and the end of a rotation

What the rotation module does with a contact's QKEY and QTEST, how `rotation_complete` copies
the new credentials into place, and what clears or restores a rotation.
-/

namespace SimpleGo

open Lib

/-! ### QKEY -/

/-- A length-prefixed field is stepped over; its bytes are not checked. -/
def skipPrefixed (data : List UInt8) (p : ℕ) : Option ℕ :=
  if data.length ≤ p then none else some (p + 1 + (data.getD p 0).toNat)

/-- Step over several fields. -/
def skipFields (data : List UInt8) : (count : ℕ) → ℕ → Option ℕ
  | 0, p => some p
  | count + 1, p => skipPrefixed data p >>= skipFields data count

/-- The position of the key in an entry: behind the version, the hosts, the port, the key
hash and the sender id. -/
def qkeyDhPosition (data : List UInt8) (p : ℕ) : Option ℕ :=
  if data.length < p + 2 then none
  else if data.length ≤ p + 2 then none
  else do
    let p ← skipFields data (data.getD (p + 2) 0).toNat (p + 3)
    let p ← skipFields data 3 p
    if data.length ≤ p then none else some p

/-- `dhPublicKey` of an entry, as SPKI or raw. -/
def QkeyEntry.readDh (e : QkeyEntry) (data : List UInt8) (p dhLen : ℕ) : QkeyEntry :=
  if dhLen = 44 ∧ p + 44 ≤ data.length ∧ (data.drop p).take 12 = RotationDevice.x25519SpkiHdr then
    { e with peerE2ePublic := bytesAt data (p + 12) 32, hasPeerE2ePublic := true }
  else if dhLen = 32 ∧ p + 32 ≤ data.length then
    { e with peerE2ePublic := bytesAt data p 32, hasPeerE2ePublic := true }
  else e

/-- `senderKey` of an entry. -/
def QkeyEntry.readSenderKey (e : QkeyEntry) (data : List UInt8) (p keyLen : ℕ) : QkeyEntry :=
  if keyLen = 44 ∧ p + 44 ≤ data.length then
    { e with peerSenderKey := bytesAt data p 44, hasPeerSenderKey := true }
  else e

/-- One entry of a QKEY from position `p`: the entry afterwards and the position behind it,
none where the message is cut short. A key read before the cut stays. -/
def QkeyEntry.read (e : QkeyEntry) (data : List UInt8) (p : ℕ) : QkeyEntry × Option ℕ :=
  match qkeyDhPosition data p with
  | none => (e, none)
  | some p =>
    let dhLen := (data.getD p 0).toNat
    let e := e.readDh data (p + 1) dhLen
    let p := p + 1 + dhLen
    if data.length ≤ p then (e, none)
    else
      let keyLen := (data.getD p 0).toNat
      (e.readSenderKey data (p + 1) keyLen, some (p + 1 + keyLen))

/-- The record after the entries of a QKEY, and whether all of them were read. -/
def RotationContactData.readQkey (rd : RotationContactData) (data : List UInt8) :
    RotationContactData × Bool :=
  let main := rd.mainPeer.read data 1
  let rd := { rd with mainPeer := main.1 }
  match main.2 with
  | none => (rd, false)
  | some p =>
    if data.getD 0 0 < 2 then (rd, true)
    else
      let rq := rd.rqPeer.read data p
      ({ rd with rqPeer := rq.1 }, rq.2.isSome)

namespace RotationDevice

variable (dev : RotationDevice)

/-- `rotation_handle_qkey`. What a cut message left in the record is not saved. -/
def rotationHandleQkey (idx : ℕ) (data : List UInt8) : RotationDevice :=
  let rd := dev.record idx
  if maxContacts ≤ idx ∨ (rd.state ≠ .qaddSent ∧ rd.state ≠ .waiting) ∨ data = [] ∨
      data.getD 0 0 = 0 then dev
  else
    let read := rd.readQkey data
    if read.2 then dev.updateRecord idx { read.1 with state := .qkeyReceived }
    else dev.setRecord idx read.1

/-! ### The end of a rotation -/

/-- The records are zeroed and the context is reset. -/
def zeroRotation : RotationDevice :=
  { dev with
    records := dev.records.map fun rs i =>
      if i < maxContacts ∧ (rs i).state ≠ .idle then .zero else rs i
    ctx := .zero }

/-- Every active contact is DONE or IDLE. -/
def allQtestDone : Bool :=
  dev.activeSlots.all fun i =>
    dev.rotationGetContactState i == .done || dev.rotationGetContactState i == .idle

/-- `rotation_mark_qtest_received`. -/
def rotationMarkQtestReceived (idx : ℕ) : RotationDevice :=
  if dev.records = none ∨ maxContacts ≤ idx then dev
  else
    let marked := dev.markState idx .done
    let counted := { marked with
      ctx := { marked.ctx with contactsDone := marked.ctx.contactsDone + 1 } }.saveContext
    if counted.allQtestDone then
      { counted.zeroRotation.clearAllRotationNvs with records := none, rqSubsNeeded := true }
    else counted

/-- `rotation_abort`. -/
def rotationAbort : RotationDevice := dev.zeroRotation.clearAllRotationNvs

/-! ### The live switch -/

/-- The contact is active and in QUSE_SENT or DONE. -/
def migrates (idx : ℕ) : Bool :=
  decide (idx < maxContacts) && (dev.contacts idx).isActive &&
    (dev.rotationGetContactState idx == .done || dev.rotationGetContactState idx == .quseSent)

end RotationDevice

/-- The main queue's credentials. -/
def Contact.migrate (c : Contact) (rd : RotationContactData) : Contact :=
  { c with
    recipientId := copyId c.recipientId rd.main.rcvId rd.main.rcvIdLen.toNat
    recipientIdLen := rd.main.rcvIdLen
    rcvAuthPublic := rd.main.rcvAuthPublic
    rcvAuthSecret := rd.main.rcvAuthPrivate
    rcvDhPublic := rd.main.rcvDhPublic
    rcvDhSecret := rd.main.rcvDhPrivate
    srvDhPublic := rd.main.srvDhPublic
    haveSrvDh := 1 }

/-- The reply queue's credentials. `c` still has the keys that the peer's server knows; they
and the signing keys are kept aside the first time only. -/
def ReplyQueue.migrate (q : ReplyQueue) (c : Contact) (rd : RotationContactData) : ReplyQueue :=
  { q with
    peerDhSecret := if q.hasPeerDh then q.peerDhSecret else c.rcvDhSecret
    peerDhPublic := if q.hasPeerDh then q.peerDhPublic else c.rcvDhPublic
    hasPeerDh := true
    rcvId := copyId q.rcvId rd.rq.rcvId rd.rq.rcvIdLen.toNat
    rcvIdLen := rd.rq.rcvIdLen.toNat
    sndId := copyId q.sndId rd.main.sndId rd.main.sndIdLen.toNat
    sndIdLen := rd.main.sndIdLen.toNat
    peerAuthPrivate := if q.hasPeerAuth then q.peerAuthPrivate else q.rcvAuthPrivate
    peerAuthPublic := if q.hasPeerAuth then q.peerAuthPublic else q.rcvAuthPublic
    hasPeerAuth := true
    rcvAuthPublic := rd.rq.rcvAuthPublic
    rcvAuthPrivate := rd.rq.rcvAuthPrivate
    e2ePublic := rd.rq.e2ePublic
    e2ePrivate := rd.rq.e2ePrivate
    srvDhPublic := rd.rq.srvDhPublic
    sharedSecret := rd.rq.sharedSecret
    valid := true }

namespace RotationDevice

variable (dev : RotationDevice)

/-- The contacts that a live switch moves. -/
def migratedSlots : List ℕ := (List.range maxContacts).filter dev.migrates

/-- Phase 1 of `rotation_complete`: the credentials of every contact that is ready. -/
def migrateCredentials : RotationDevice :=
  { dev with
    contacts := fun i =>
      if dev.migrates i then (dev.contacts i).migrate (dev.record i) else dev.contacts i
    replyQueues := fun i =>
      if dev.migrates i then (dev.replyQueues i).migrate (dev.contacts i) (dev.record i)
      else dev.replyQueues i
    history := dev.migratedSlots.map .migrated ++ dev.history }

/-- Phase 1b: the E2E keys of the contact queues are those of the first contact moved. -/
def switchE2eKeys : RotationDevice :=
  match dev.migratedSlots.head? with
  | none => dev
  | some i =>
    let rd := dev.record i
    let keyed := { dev with
      ourQueue := { dev.ourQueue with
        e2ePublic := rd.main.e2ePublic, e2ePrivate := rd.main.e2ePrivate } }
    if rd.mainPeer.hasPeerE2ePublic then
      { keyed with cqPeerE2e := some rd.mainPeer.peerE2ePublic }.write .cqE2ePeer
        (some (.peerKey rd.mainPeer.peerE2ePublic))
    else keyed

/-- Phase 2, after `smp_tasks_reset_rotation_guard`: our queues are on the target server. -/
def switchServer : RotationDevice :=
  { dev with
    completeLogged := false
    ourQueue := { dev.ourQueue with
      serverHost := strncpy 63 (cString dev.ctx.targetHost)
      serverPort := dev.ctx.targetPort.toNat
      serverKeyHash := dev.ctx.targetKeyHash } }

/-- The writes of `save_contacts_to_nvs`. -/
def contactWrites : List (FlashKey × Option FlashBlob) :=
  (List.range maxContacts).map fun i =>
    (.cnt i, if (dev.contacts i).isActive then some (.contact (dev.contacts i)) else none)

/-- The writes of the moved reply queues. -/
def replyQueueWrites : List (FlashKey × Option FlashBlob) :=
  dev.migratedSlots.map fun i => (.rq i, some (.replyQueue (dev.replyQueues i)))

/-- Phase 3: contacts, then reply queues, then our queue. -/
def persistCredentials : RotationDevice :=
  { dev with
    flash := dev.flash ++ (dev.contactWrites ++ dev.replyQueueWrites ++
      [(.queueOur, some (.ourQueue dev.ourQueue))]) }

/-- Phase 5: the rotation ends when nothing is pending and no QTEST is awaited. -/
def finishSwitch : RotationDevice :=
  if dev.activeSlots.all fun i => dev.rotationGetContactState i == .done then
    dev.zeroRotation.clearAllRotationNvs
  else dev.saveContext

/-- `rotation_complete`. -/
def rotationComplete : RotationDevice :=
  let saved := dev.migrateCredentials.switchE2eKeys.switchServer.persistCredentials
  (saved.smpServersSetActive saved.ctx.targetServerIdx).finishSwitch

/-! ### Start-up -/

/-- The contact loaded for a slot. -/
def loadedContact (nvs : Store FlashKey FlashBlob) (i : ℕ) : Contact :=
  match nvs (.cnt i) with
  | some (.contact c) => if i < maxContacts then c else .zero
  | _ => .zero

/-- The reply queue loaded for a slot. -/
def loadedReplyQueue (nvs : Store FlashKey FlashBlob) (i : ℕ) : ReplyQueue :=
  match nvs (.rq i) with
  | some (.replyQueue q) => if i < maxContacts ∧ q.valid then q else .zero
  | _ => .zero

/-- The record loaded for a slot, into zeroed memory. -/
def loadedRecord (nvs : Store FlashKey FlashBlob) (i : ℕ) : RotationContactData :=
  match nvs (.rotC i) with
  | some (.record rd) => if i < maxContacts then rd else .zero
  | _ => .zero

/-- `load_context`: an active rotation. -/
def loadedContext (nvs : Store FlashKey FlashBlob) : Option RotationContext :=
  match nvs .rotCtx with
  | some (.context ctx) => if ctx.active then some ctx else none
  | _ => none

/-- `rotation_init` on a fresh RAM. -/
def rotationInit : RotationDevice :=
  match loadedContext dev.nvs with
  | some ctx => { dev with ctx := ctx, records := some (loadedRecord dev.nvs) }
  | none => { dev with ctx := .zero, records := some fun _ => .zero }

/-- The queue of the device after a start-up; `created` is the one `queue_create` makes when
none is stored. -/
def loadedOurQueue (nvs : Store FlashKey FlashBlob) (created : OurQueue) : OurQueue :=
  match nvs .queueOur with
  | some (.ourQueue q) => if q.valid then q else created
  | _ => created

/-- A start-up: what is loaded from NVS, then `rotation_init`. -/
def boot (created : OurQueue) : RotationDevice :=
  { dev with
    contacts := loadedContact dev.nvs
    replyQueues := loadedReplyQueue dev.nvs
    ourQueue := loadedOurQueue dev.nvs created
    activeServer := match dev.nvs .activeServer with
      | some (.index i) => i
      | _ => 0
    rqSubsNeeded := false
    cqPeerE2e := none
    completeLogged := false }.rotationInit

end RotationDevice

end SimpleGo
