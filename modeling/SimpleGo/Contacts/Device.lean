import SimpleGo.Ratchet.Persist

/-!
# The contact slots of the device

What the firmware keeps for its contacts: the tables in RAM, the working copy of one
ratchet, the deferred requests between its tasks, and NVS. The functions here are those that
move a slot's data between these places; what a session does with the data is left to the
callers, so a handshake or a message appears as the writes it leaves.
-/

namespace SimpleGo

open Lib

variable {K : Type}

/-- The contact side of the device. -/
structure ContactDevice (K : Type) where
  nvs : Nvs K
  contacts : ℕ → Contact
  numContacts : UInt8
  ratchetStates : ℕ → RatchetState K
  /-- The working copy. -/
  ratchetState : RatchetState K
  activeRatchetIdx : ℕ
  handshakes : ℕ → HandshakeEntry
  activeHandshakeIdx : ℕ
  replyQueues : ℕ → ReplyQueue
  ourQueue : Option OurQueue
  contactsDirty : Bool
  rqSavePending : Option ℕ
  pendingDeleteSlot : Option ℕ

namespace ContactDevice

variable (dev : ContactDevice K)

/-! ### Contact records -/

/-- `save_contacts_to_nvs`: the key of a free slot is erased. `lands` says which of the NVS
calls succeed. -/
def saveContactsToNvs (lands : ℕ → Bool) : ContactDevice K :=
  { dev with
    nvs := dev.nvs.setFamily cntKey (fun i =>
      if lands i then
        some (if (dev.contacts i).isActive then some (.contact (dev.contacts i)) else none)
      else none) maxContacts }

/-- `save_contact_single`. -/
def saveContactSingle (idx : ℕ) (lands : Bool) : ContactDevice K :=
  if idx < maxContacts ∧ lands then
    { dev with
      nvs := if (dev.contacts idx).isActive then
        dev.nvs.put (cntKey idx) (.contact (dev.contacts idx)) else dev.nvs.erase (cntKey idx) }
  else dev

/-- `clear_all_contacts`. -/
def clearAllContacts : ContactDevice K :=
  { dev with
    nvs := (dev.nvs.setFamily cntKey (fun _ => some none) maxContacts).erase "contacts"
    contacts := fun _ => .zero
    numContacts := 0 }

/-- The record loaded for a slot; a slot without a stored record is zeroed. -/
def loadContact (nvs : Nvs K) (i : ℕ) : Contact :=
  match nvs (cntKey i) with
  | some (.contact c) => if i < maxContacts then c else .zero
  | _ => .zero

/-- The number of active slots, as the counter counts them. -/
def countActive (contacts : ℕ → Contact) (n : ℕ) : UInt8 :=
  UInt8.ofNat ((List.range n).countP fun i => (contacts i).isActive)

/-- `load_contacts_from_nvs`: when no slot has an active record, a table of an earlier
version is taken over and stored in the new form. -/
def loadContactsFromNvs (lands : ℕ → Bool) : ContactDevice K :=
  let contacts := loadContact dev.nvs
  let loaded := { dev with contacts := contacts, numContacts := countActive contacts maxContacts }
  if (List.range maxContacts).any fun i => (contacts i).isActive then loaded
  else
    match dev.nvs "contacts" with
    | some (.legacyContacts count old) =>
      if 0 < count ∧ count ≤ 10 then
        let migrated := fun i => if i < count.toNat then old.getD i .zero else contacts i
        { dev with
          contacts := migrated
          numContacts := countActive migrated count.toNat }.saveContactsToNvs lands
      else loaded
    | _ => loaded

/-- The keys `add_contact` draws, with the name. -/
structure ContactKeys where
  name : Bytes 32
  rcvAuthSecret : Bytes 64
  rcvAuthPublic : Bytes 32
  rcvDhSecret : Bytes 32
  rcvDhPublic : Bytes 32

/-- The fields read from the server's `IDS` answer. -/
structure QueueIds where
  recipientId : Bytes 24
  recipientIdLen : UInt8
  senderId : Bytes 24
  senderIdLen : UInt8
  srvDhPublic : Bytes 32
  haveSrvDh : UInt8

/-- The record before the server has answered. -/
def draftContact (keys : ContactKeys) : Contact :=
  { Contact.zero with
    name := keys.name
    rcvAuthSecret := keys.rcvAuthSecret
    rcvAuthPublic := keys.rcvAuthPublic
    rcvDhSecret := keys.rcvDhSecret
    rcvDhPublic := keys.rcvDhPublic }

/-- The record of a created contact. -/
def createdContact (keys : ContactKeys) (ids : QueueIds) : Contact :=
  { draftContact keys with
    recipientId := ids.recipientId
    recipientIdLen := ids.recipientIdLen
    senderId := ids.senderId
    senderIdLen := ids.senderIdLen
    srvDhPublic := ids.srvDhPublic
    haveSrvDh := ids.haveSrvDh
    active := 1 }

/-- The first free slot. -/
def freeSlot : Option ℕ :=
  (List.range maxContacts).find? fun i => !(dev.contacts i).isActive

/-- `add_contact`; `ids` is none when the command is not answered with `IDS`. With
`contacts_nvs_deferred` the record is not saved. -/
def addContact (keys : ContactKeys) (ids : Option QueueIds) (deferred : Bool)
    (lands : ℕ → Bool) : ContactDevice K × Option ℕ :=
  match dev.freeSlot with
  | none => (dev, none)
  | some slot =>
    match ids with
    | none => ({ dev with contacts := Function.update dev.contacts slot (draftContact keys) }, none)
    | some ids =>
      let added := { dev with
        contacts := Function.update dev.contacts slot (createdContact keys ids)
        numContacts := dev.numContacts + 1 }
      (if deferred then added else added.saveContactsToNvs lands, some slot)

/-- `NET_CMD_ADD_CONTACT`: the save is left to the app task. `queue` is the reply queue made
for the slot: its generated keys, valid when the server answered. -/
def cmdAddContact (keys : ContactKeys) (ids : Option QueueIds) (queue : ReplyQueue) :
    ContactDevice K :=
  match dev.addContact keys ids true fun _ => true with
  | (added, none) => added
  | (added, some slot) =>
    { added with
      contactsDirty := true
      replyQueues := Function.update added.replyQueues slot queue
      rqSavePending := if queue.valid then some slot else added.rqSavePending }

/-! ### Ratchets -/

/-- The table with the working copy put back, as `ratchet_set_active` begins. After a wipe of
the active slot the index is 255 and the write goes behind the table's `MAX_RATCHETS` entries:
the table stays as it is, and what the write hits is not part of the model. -/
def putBack : ℕ → RatchetState K :=
  if dev.activeRatchetIdx < maxContacts then
    Function.update dev.ratchetStates dev.activeRatchetIdx dev.ratchetState
  else dev.ratchetStates

/-- `ratchet_set_active`. -/
def ratchetSetActive (idx : ℕ) : ContactDevice K :=
  if maxContacts ≤ idx then dev
  else
    let states := dev.putBack
    let moved := { dev with
      ratchetStates := states
      ratchetState := states idx
      activeRatchetIdx := idx }
    if (states idx).initialized then moved
    else
      match ratchetReload dev.nvs idx with
      | none => moved
      | some loaded =>
        { moved with
          ratchetState := loaded
          ratchetStates := Function.update states idx loaded }

/-- The entries of `ratchet_states` that `ratchet_set_active` accesses: the one it puts the
working copy back into and the one it reads. -/
def setActiveAccesses (idx : ℕ) : List ℕ :=
  if maxContacts ≤ idx then [] else [dev.activeRatchetIdx, idx]

/-- `ratchet_wipe_slot`. -/
def ratchetWipeSlot (P : Primitives K) (idx : ℕ) : ContactDevice K :=
  if maxContacts ≤ idx then dev
  else
    { dev with
      ratchetState := if idx = dev.activeRatchetIdx then .zero P else dev.ratchetState
      activeRatchetIdx := if idx = dev.activeRatchetIdx then 255 else dev.activeRatchetIdx
      ratchetStates := Function.update dev.ratchetStates idx (.zero P) }

/-! ### Handshakes, peers and reply queues -/

/-- `handshake_save_state` of the active entry. -/
def handshakeSaveState : ContactDevice K :=
  { dev with
    nvs := dev.nvs.put (handKey dev.activeHandshakeIdx)
      (.handshake (dev.handshakes dev.activeHandshakeIdx) 1) }

/-- The entry `handshake_load_state` finds for a slot. -/
def storedHandshake (nvs : Nvs K) (idx : ℕ) : Option HandshakeEntry :=
  match nvs (handKey idx) with
  | some (.handshake h valid) => if valid ≠ 0 then some h else none
  | _ => none

/-- `handshake_load_state`: an entry that is not found stays as it is. -/
def handshakeLoadState : ContactDevice K :=
  match storedHandshake dev.nvs dev.activeHandshakeIdx with
  | none => dev
  | some h => { dev with handshakes := Function.update dev.handshakes dev.activeHandshakeIdx h }

/-- `handshake_set_active`. -/
def handshakeSetActive (idx : ℕ) : ContactDevice K :=
  if maxContacts ≤ idx then dev
  else
    let saved := if dev.activeHandshakeIdx ≠ idx then dev.handshakeSaveState else dev
    { saved with activeHandshakeIdx := idx }.handshakeLoadState

/-- `peer_load_state`: the peer queue it accepts. -/
def peerLoadState (nvs : Nvs K) (idx : ℕ) : Option PeerQueue :=
  match nvs (peerKey idx) with
  | some (.peer p) =>
    if p.valid ≠ 0 ∧ p.hostStart ≠ 0 ∧ p.port ≠ 0 ∧ 0 < p.queueIdLen ∧ p.queueIdLen ≤ 32 then some p
    else none
  | _ => none

/-- `reply_queue_save`. -/
def replyQueueSave (slot : ℕ) (lands : Bool) : ContactDevice K :=
  if slot < maxContacts ∧ (dev.replyQueues slot).valid ∧ lands then
    { dev with nvs := dev.nvs.put (rqKey slot) (.replyQueue (dev.replyQueues slot)) }
  else dev

/-- The reply queue `reply_queue_load` leaves in RAM: a valid one is kept, an invalid or
missing one is zeroed. -/
def loadedReplyQueue (slot : ℕ) : ReplyQueue :=
  if (dev.replyQueues slot).valid then dev.replyQueues slot
  else
    match dev.nvs (rqKey slot) with
    | some (.replyQueue q) => if q.valid then q else .zero
    | _ => .zero

/-- `reply_queues_load_all`. -/
def replyQueuesLoadAll : ContactDevice K :=
  { dev with
    replyQueues := fun slot =>
      if slot < maxContacts then dev.loadedReplyQueue slot else dev.replyQueues slot }

/-- `queue_load_credentials`. -/
def queueLoadCredentials (nvs : Nvs K) : Option OurQueue :=
  match nvs "queue_our" with
  | some (.ourQueue q) => if q.valid then some q else none
  | _ => none

/-- A device that has never stored anything. -/
def blank (P : Primitives K) : ContactDevice K where
  nvs := fun _ => none
  contacts := fun _ => .zero
  numContacts := 0
  ratchetStates := fun _ => .zero P
  ratchetState := .zero P
  activeRatchetIdx := 0
  handshakes := fun _ => .zero
  activeHandshakeIdx := 0
  replyQueues := fun _ => .zero
  ourQueue := none
  contactsDirty := false
  rqSavePending := none
  pendingDeleteSlot := none

end ContactDevice

end SimpleGo
