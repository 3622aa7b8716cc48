import SimpleGo.Contacts.SlotReuse

/-!
# Deferred saves

The network task makes contacts and reply queues but may not write to NVS, and the UI aborts
invitations; both leave a request in a variable of its own, which the app task takes when it
runs its deferred work. The network task makes the contact and asks for the save of the
records, and some seconds later it has the reply queue and asks for its save. The state of the
device is the one of the contact slots; here the two parts of the command are separate steps.
-/

namespace SimpleGo

open Lib

variable {K : Type}

/-- The contact slots with the tasks around them. -/
structure InviteTasks (K : Type) where
  dev : ContactDevice K
  /-- `s_handshake_contact_idx`. -/
  handshakeContact : Option ℕ
  /-- `s_42d_bitmap`. -/
  done42d : ℕ → Bool
  /-- `s_scanned_notified`. -/
  scannedNotified : ℕ → Bool
  /-- The slot for which the network task is about to make a reply queue. -/
  adding : Option ℕ
  /-- The slots whose invitation has been aborted and that have no contact since. -/
  aborted : ℕ → Bool

namespace InviteTasks

/-- The tasks after a start-up: the contacts that were loaded have done their handshakes. -/
def start (dev : ContactDevice K) : InviteTasks K where
  dev := dev
  handshakeContact := none
  done42d := fun i => (dev.contacts i).isActive
  scannedNotified := fun _ => false
  adding := none
  aborted := fun _ => false

/-- The first part of `NET_CMD_ADD_CONTACT`: `add_contact`, and the request to save the
records. -/
def addContact (s : InviteTasks K) (keys : ContactDevice.ContactKeys)
    (ids : Option ContactDevice.QueueIds) : InviteTasks K :=
  if s.adding.isSome then s
  else
    match s.dev.addContact keys ids true fun _ => true with
    | (added, none) => { s with dev := added }
    | (added, some slot) =>
      { s with
        dev := { added with contactsDirty := true }
        handshakeContact := some slot
        scannedNotified := Function.update s.scannedNotified slot false
        adding := some slot
        aborted := Function.update s.aborted slot false }

/-- The second part: `reply_queue_create`, and the request to save the reply queue if it is
valid. -/
def createQueue (s : InviteTasks K) (queue : ReplyQueue) : InviteTasks K :=
  match s.adding with
  | none => s
  | some slot =>
    { s with
      dev := { s.dev with
        replyQueues := Function.update s.dev.replyQueues slot queue
        rqSavePending := if queue.valid then some slot else s.dev.rqSavePending }
      adding := none }

/-- `smp_get_pending_contact_slot`. -/
def pendingContactSlot (s : InviteTasks K) : Option ℕ :=
  s.handshakeContact.filter fun slot =>
    decide (slot < maxContacts) && !s.done42d slot && !s.scannedNotified slot

/-- `smp_abort_pending_contact`. -/
def abort (s : InviteTasks K) : InviteTasks K :=
  match s.pendingContactSlot with
  | none => s
  | some slot =>
    { s with
      dev := s.dev.abortPendingContact slot
      handshakeContact := none
      aborted := Function.update s.aborted slot true }

/-- `app_process_deferred_work`; the cleanup also clears the slot's two bits. -/
def deferredWork (s : InviteTasks K) (lands : ℕ → Bool) (queueLands : Bool) : InviteTasks K :=
  let cleared (bits : ℕ → Bool) : ℕ → Bool :=
    match s.dev.pendingDeleteSlot with
    | none => bits
    | some slot => Function.update bits slot false
  { s with
    dev := s.dev.processDeferredWork lands queueLands
    done42d := cleared s.done42d
    scannedNotified := cleared s.scannedNotified }

end InviteTasks

/-- What the network task, the UI and the app task do about invitations. -/
inductive InviteStep where
  | addContact (keys : ContactDevice.ContactKeys) (ids : Option ContactDevice.QueueIds)
  | createQueue (queue : ReplyQueue)
  | abort
  /-- A first message for the slot has come. -/
  | scanned (slot : ℕ)
  | handshakeDone (slot : ℕ)
  | deferredWork (lands : ℕ → Bool) (queueLands : Bool)

/-- The tasks after a step. -/
def InviteTasks.step (s : InviteTasks K) : InviteStep → InviteTasks K
  | .addContact keys ids => s.addContact keys ids
  | .createQueue queue => s.createQueue queue
  | .abort => s.abort
  | .scanned slot => { s with scannedNotified := Function.update s.scannedNotified slot true }
  | .handshakeDone slot => { s with done42d := Function.update s.done42d slot true }
  | .deferredWork lands queueLands => s.deferredWork lands queueLands

/-- The two parts of `NET_CMD_ADD_CONTACT` together are the command. -/
theorem addContact_createQueue (s : InviteTasks K) (keys : ContactDevice.ContactKeys)
    (ids : Option ContactDevice.QueueIds) (queue : ReplyQueue) (h : s.adding = none) :
    ((s.addContact keys ids).createQueue queue).dev = s.dev.cmdAddContact keys ids queue := by
  rw [InviteTasks.addContact, h, ContactDevice.cmdAddContact]
  simp only [Option.isSome_none, Bool.false_eq_true, if_false]
  rcases s.dev.addContact keys ids true fun _ => true with ⟨added, _ | slot⟩
  · simp only [InviteTasks.createQueue]
  · rfl

/-- Nothing is left for the app task, and the network task is not between the two parts of a
command. -/
def InviteTasks.Idle (s : InviteTasks K) : Prop :=
  s.dev.contactsDirty = false ∧ s.dev.rqSavePending = none ∧ s.dev.pendingDeleteSlot = none ∧
    s.adding = none

/-- What was asked for has been done: the records and reply queues of the active contacts are
in NVS, and nothing is stored for an aborted slot. -/
def InviteTasks.NothingLost (s : InviteTasks K) : Prop :=
  (∀ i < maxContacts, (s.dev.contacts i).isActive = true →
    (s.dev.replyQueues i).valid = true →
      s.dev.nvs (cntKey i) = some (.contact (s.dev.contacts i)) ∧
        s.dev.nvs (rqKey i) = some (.replyQueue (s.dev.replyQueues i))) ∧
  ∀ i < maxContacts, s.aborted i = true →
    s.dev.nvs (cntKey i) = none ∧ s.dev.nvs (rqKey i) = none

/-- The slot has a contact with a finished reply queue. -/
def InviteTasks.HasQueue (s : InviteTasks K) (i : ℕ) : Prop :=
  (s.dev.contacts i).isActive = true ∧ (s.dev.replyQueues i).valid = true ∧ s.adding ≠ some i

/-- No request is overtaken. A reply queue is finished while its contact is active and no
other reply queue waits to be saved. An invitation is aborted when its own reply queue does
not wait to be saved, when no earlier cleanup still has a reply queue to delete, and when the
decimal name that the cleanup forms is the slot's own if something is stored for it, and no
other contact's. NVS takes what it is given. -/
def InviteStep.Unhurried (s : InviteTasks K) : InviteStep → Prop
  | .createQueue queue => ∀ slot ∈ s.adding, queue.valid = true →
      (s.dev.contacts slot).isActive = true ∧ ∀ j ∈ s.dev.rqSavePending, j = slot
  | .abort => ∀ slot ∈ s.pendingContactSlot,
      s.dev.rqSavePending ≠ some slot ∧
        (∀ j ∈ s.dev.pendingDeleteSlot,
          j = slot ∨ s.aborted j = false ∨ s.dev.nvs (rqKey j) = none) ∧
        (rqKey slot ∈ abortedKeys slot ∨ s.dev.nvs (rqKey slot) = none) ∧
        ∀ i < maxContacts, i ≠ slot → s.HasQueue i → rqKey i ∈ abortedKeys slot →
          s.dev.rqSavePending = some i
  | .deferredWork lands queueLands => (∀ j, lands j = true) ∧ queueLands = true
  | .addContact _ _ | .scanned _ | .handshakeDone _ => True

/-- What holds at every moment of an unhurried run. -/
structure InviteInv (s : InviteTasks K) : Prop where
  records : RecordsSaved s.dev
  queues : ∀ i < maxContacts, s.HasQueue i →
    s.dev.nvs (rqKey i) = some (.replyQueue (s.dev.replyQueues i)) ∨ s.dev.rqSavePending = some i
  cleanup : ∀ slot ∈ s.dev.pendingDeleteSlot, ∀ i < maxContacts, s.HasQueue i →
    rqKey i ∈ abortedKeys slot → s.dev.rqSavePending = some i
  cleanupLt : ∀ slot ∈ s.dev.pendingDeleteSlot, slot < maxContacts
  abortedRecord : ∀ i < maxContacts, s.aborted i = true → (s.dev.contacts i).isActive = false ∧
    (s.dev.nvs (cntKey i) = none ∨ s.dev.contactsDirty = true ∨
      s.dev.pendingDeleteSlot.isSome = true)
  abortedQueue : ∀ i < maxContacts, s.aborted i = true → s.dev.rqSavePending ≠ some i ∧
    (s.dev.nvs (rqKey i) = none ∨ (s.dev.pendingDeleteSlot = some i ∧ rqKey i ∈ abortedKeys i))

/-! ### The deferred work -/

/-- What the deferred work leaves of the requests. -/
theorem processDeferredWork_requests (dev : ContactDevice K) (lands : ℕ → Bool)
    (queueLands : Bool) :
    (dev.processDeferredWork lands queueLands).contacts = dev.contacts ∧
      (dev.processDeferredWork lands queueLands).replyQueues = dev.replyQueues ∧
      (dev.processDeferredWork lands queueLands).contactsDirty = false ∧
      (dev.processDeferredWork lands queueLands).rqSavePending = none ∧
      (dev.processDeferredWork lands queueLands).pendingDeleteSlot = none := by
  have hdirty : ∀ d : ContactDevice K, (d.saveDirtyContacts lands).contacts = d.contacts ∧
      (d.saveDirtyContacts lands).contactsDirty = false := by
    intro d
    rw [ContactDevice.saveDirtyContacts]
    by_cases hd : d.contactsDirty = true
    · rw [if_pos hd]
      exact ⟨rfl, rfl⟩
    · rw [if_neg hd]
      exact ⟨rfl, by simpa using hd⟩
  have hclean : ∀ d : ContactDevice K, (d.abortCleanup lands).contacts = d.contacts ∧
      (d.abortCleanup lands).contactsDirty = d.contactsDirty ∧
      (d.abortCleanup lands).pendingDeleteSlot = none := by
    intro d
    rw [ContactDevice.abortCleanup]
    cases hd : d.pendingDeleteSlot with
    | none => exact ⟨rfl, rfl, hd⟩
    | some slot =>
      dsimp only
      split_ifs <;> exact ⟨rfl, rfl, rfl⟩
  have hqueue : ∀ d : ContactDevice K, (d.saveDeferredQueue queueLands).contacts = d.contacts ∧
      (d.saveDeferredQueue queueLands).replyQueues = d.replyQueues ∧
      (d.saveDeferredQueue queueLands).contactsDirty = d.contactsDirty ∧
      (d.saveDeferredQueue queueLands).rqSavePending = none ∧
      (d.saveDeferredQueue queueLands).pendingDeleteSlot = d.pendingDeleteSlot := by
    intro d
    rw [ContactDevice.saveDeferredQueue]
    cases hd : d.rqSavePending with
    | none => exact ⟨rfl, rfl, rfl, hd, rfl⟩
    | some slot =>
      dsimp only
      rw [ContactDevice.replyQueueSave]
      split_ifs <;> exact ⟨rfl, rfl, rfl, rfl, rfl⟩
  obtain ⟨hq₁, hq₂, hq₃, hq₄, hq₅⟩ := hqueue ((dev.saveDirtyContacts lands).abortCleanup lands)
  obtain ⟨hc₁, hc₂, hc₃⟩ := hclean (dev.saveDirtyContacts lands)
  obtain ⟨hd₁, hd₂⟩ := hdirty dev
  have hqueues := (abortCleanup_same (dev.saveDirtyContacts lands) lands).2.replyQueues.trans
    (saveDirtyContacts_same dev lands).2.1.replyQueues
  exact ⟨hq₁.trans (hc₁.trans hd₁), hq₂.trans hqueues, hq₃.trans (hc₂.trans hd₂), hq₄,
    hq₅.trans hc₃⟩

/-- A save of the records erases the record of a free slot. -/
theorem saveContactsToNvs_free (dev : ContactDevice K) {lands : ℕ → Bool}
    (hlands : ∀ j, lands j = true) {i : ℕ} (hi : i < maxContacts)
    (hfree : (dev.contacts i).isActive = false) :
    (dev.saveContactsToNvs lands).nvs (cntKey i) = none := by
  obtain rfl : lands = fun _ => true := funext hlands
  rw [saveContactsToNvs_nvs, Store.setFamily_key _ _ _ cntKey_injOn hi]
  exact if_neg (by rw [hfree]; exact Bool.false_ne_true)

/-- After the deferred work nothing is stored under the record key of a free slot, if nothing
was or a save was asked for. -/
theorem processDeferredWork_free (dev : ContactDevice K) {lands : ℕ → Bool}
    (hlands : ∀ j, lands j = true) (queueLands : Bool) {i : ℕ} (hi : i < maxContacts)
    (hpendingLt : ∀ slot ∈ dev.pendingDeleteSlot, slot < maxContacts)
    (hfree : (dev.contacts i).isActive = false)
    (hsave : dev.nvs (cntKey i) = none ∨ dev.contactsDirty = true ∨
      dev.pendingDeleteSlot.isSome = true) :
    (dev.processDeferredWork lands queueLands).nvs (cntKey i) = none := by
  have hqueue : ∀ d : ContactDevice K,
      (d.saveDeferredQueue queueLands).nvs (cntKey i) = d.nvs (cntKey i) := by
    intro d
    rw [ContactDevice.saveDeferredQueue]
    cases d.rqSavePending with
    | none => rfl
    | some slot =>
      dsimp only
      rw [ContactDevice.replyQueueSave]
      have hkey : cntKey i ≠ rqKey slot := ne_of_keyFamily (by simp)
      split_ifs
      · exact Store.put_of_ne d.nvs (.replyQueue (d.replyQueues slot)) hkey
      · rfl
  have hdirty : dev.pendingDeleteSlot.isSome = false →
      (dev.saveDirtyContacts lands).nvs (cntKey i) = none := by
    intro hnone
    rw [ContactDevice.saveDirtyContacts]
    by_cases hd : dev.contactsDirty = true
    · rw [if_pos hd]
      exact saveContactsToNvs_free _ hlands hi hfree
    · rw [if_neg hd]
      exact (hsave.resolve_right fun h => h.elim hd fun hs => by simp [hnone] at hs)
  have hcontacts : (dev.saveDirtyContacts lands).contacts = dev.contacts := by
    rw [ContactDevice.saveDirtyContacts]
    split_ifs <;> rfl
  have hpending := (saveDirtyContacts_same dev lands).2.2
  rw [ContactDevice.processDeferredWork, hqueue, ContactDevice.abortCleanup, hpending]
  cases hslot : dev.pendingDeleteSlot with
  | none => exact hdirty (by rw [hslot]; rfl)
  | some slot =>
    dsimp only
    rw [if_pos (hpendingLt slot hslot)]
    exact saveContactsToNvs_free _ hlands hi (by simpa [hcontacts] using hfree)

/-! ### The invariant -/

/-- A step that changes no request and finishes no reply queue keeps the invariant. -/
theorem InviteInv.of_same {s s' : InviteTasks K} (h : InviteInv s) (hrecords : RecordsSaved s'.dev)
    (hnvs : s'.dev.nvs = s.dev.nvs) (hqueues : s'.dev.replyQueues = s.dev.replyQueues)
    (hpending : s'.dev.rqSavePending = s.dev.rqSavePending)
    (hdelete : s'.dev.pendingDeleteSlot = s.dev.pendingDeleteSlot)
    (hdirty : s.dev.contactsDirty = true → s'.dev.contactsDirty = true)
    (hhas : ∀ i < maxContacts, s'.HasQueue i → s.HasQueue i)
    (haborted : ∀ i < maxContacts, s'.aborted i = true →
      s.aborted i = true ∧ (s'.dev.contacts i).isActive = false) : InviteInv s' where
  records := hrecords
  queues := by
    intro i hi hq
    rw [hnvs, hqueues, hpending]
    exact h.queues i hi (hhas i hi hq)
  cleanup := by
    intro slot hslot i hi hq hkey
    rw [hpending]
    exact h.cleanup slot (hdelete ▸ hslot) i hi (hhas i hi hq) hkey
  cleanupLt := fun slot hslot => h.cleanupLt slot (hdelete ▸ hslot)
  abortedRecord := by
    intro i hi ha
    obtain ⟨hwas, hfree⟩ := haborted i hi ha
    rw [hnvs, hdelete]
    exact ⟨hfree, (h.abortedRecord i hi hwas).2.imp_right fun hr => hr.imp_left hdirty⟩
  abortedQueue := by
    intro i hi ha
    rw [hnvs, hdelete, hpending]
    exact h.abortedQueue i hi (haborted i hi ha).1

/-- A contact is made, and its reply queue is still to come. -/
theorem InviteInv.addContact {s : InviteTasks K} (h : InviteInv s)
    (keys : ContactDevice.ContactKeys) (ids : Option ContactDevice.QueueIds) :
    InviteInv (s.addContact keys ids) := by
  rw [InviteTasks.addContact]
  by_cases hadding : s.adding.isSome = true
  · rw [if_pos hadding]
    exact h
  · rw [if_neg hadding, ContactDevice.addContact]
    cases hslot : s.dev.freeSlot with
    | none => exact h
    | some slot =>
      have hother : ∀ (c : Contact) (i : ℕ), i ≠ slot →
          Function.update s.dev.contacts slot c i = s.dev.contacts i :=
        fun c i hi => Function.update_of_ne hi ..
      cases ids with
      | none =>
        have hdraft : ∀ i, (Function.update s.dev.contacts slot
            (ContactDevice.draftContact keys) i).isActive = true → i ≠ slot := by
          rintro i hactive rfl
          rw [Function.update_self] at hactive
          cases hactive
        refine h.of_same (h.records.of_same rfl (fun i hactive => ?_) fun _ => rfl) rfl rfl rfl rfl
          id (fun i _ hq => ?_) fun i hi ha => ⟨ha, ?_⟩
        · exact hother _ i (hdraft i hactive)
        · have hcontact := hother (ContactDevice.draftContact keys) i (hdraft i hq.1)
          exact ⟨hcontact ▸ hq.1, hq.2⟩
        · by_cases hi' : i = slot
          · subst hi'
            change (Function.update s.dev.contacts i _ i).isActive = false
            rw [Function.update_self]
            rfl
          · have hfree := (h.abortedRecord i hi ha).1
            rwa [← hother (ContactDevice.draftContact keys) i hi'] at hfree
      | some ids =>
        refine h.of_same (fun hclean => absurd hclean Bool.noConfusion) rfl rfl rfl rfl
          (fun _ => rfl) (fun i _ hq => ?_) fun i hi ha => ?_
        · have hi' : i ≠ slot := fun he => hq.2.2 (congrArg some he.symm)
          have hcontact := hother (ContactDevice.createdContact keys ids) i hi'
          refine ⟨hcontact ▸ hq.1, hq.2.1, fun he => hadding ?_⟩
          rw [he]
          rfl
        · have hi' : i ≠ slot := by
            rintro rfl
            change Function.update s.aborted i false i = true at ha
            rw [Function.update_self] at ha
            cases ha
          change Function.update s.aborted slot false i = true at ha
          rw [Function.update_of_ne hi'] at ha
          have hfree := (h.abortedRecord i hi ha).1
          rw [← hother (ContactDevice.createdContact keys ids) i hi'] at hfree
          exact ⟨ha, hfree⟩

/-- A reply queue is finished and waits to be saved. -/
theorem InviteInv.createQueue {s : InviteTasks K} (h : InviteInv s) {queue : ReplyQueue}
    (hcond : InviteStep.Unhurried s (.createQueue queue)) : InviteInv (s.createQueue queue) := by
  rw [InviteTasks.createQueue]
  cases hslot : s.adding with
  | none => exact h
  | some slot =>
    have hcond := hcond slot hslot
    -- Another slot's queue is as it was; this slot's queue is the new one.
    have hpending : ∀ i, s.dev.rqSavePending = some i →
        (if queue.valid = true then some slot else s.dev.rqSavePending) = some i := by
      intro i hi
      by_cases hvalid : queue.valid = true
      · rw [if_pos hvalid, (hcond hvalid).2 i hi]
      · rw [if_neg hvalid, hi]
    have hhas : ∀ i, ({ s with
        dev := { s.dev with
          replyQueues := Function.update s.dev.replyQueues slot queue
          rqSavePending := if queue.valid then some slot else s.dev.rqSavePending }
        adding := none } : InviteTasks K).HasQueue i →
        (i = slot ∧ queue.valid = true) ∨ (i ≠ slot ∧ s.HasQueue i) := by
      rintro i ⟨hactive, hvalid, -⟩
      by_cases hi : i = slot
      · subst hi
        change (Function.update s.dev.replyQueues i queue i).valid = true at hvalid
        rw [Function.update_self] at hvalid
        exact Or.inl ⟨rfl, hvalid⟩
      · change (Function.update s.dev.replyQueues slot queue i).valid = true at hvalid
        rw [Function.update_of_ne hi] at hvalid
        refine Or.inr ⟨hi, hactive, hvalid, fun he => hi ?_⟩
        rw [hslot] at he
        exact (Option.some.inj he).symm
    refine ⟨h.records.of_same rfl (fun _ _ => rfl) fun _ => rfl, fun i hi hq => ?_,
      fun slot' hslot' i hi hq hkey => ?_, h.cleanupLt, h.abortedRecord, fun i hi ha => ⟨?_, ?_⟩⟩
    · rcases hhas i hq with ⟨rfl, hvalid⟩ | ⟨hi', hq'⟩
      · exact Or.inr (if_pos hvalid)
      · change s.dev.nvs (rqKey i) =
          some (.replyQueue (Function.update s.dev.replyQueues slot queue i)) ∨ _
        rw [Function.update_of_ne hi']
        exact (h.queues i hi hq').imp_right (hpending i)
    · rcases hhas i hq with ⟨rfl, hvalid⟩ | ⟨-, hq'⟩
      · exact if_pos hvalid
      · exact hpending i (h.cleanup slot' hslot' i hi hq' hkey)
    · intro he
      change (if queue.valid = true then some slot else s.dev.rqSavePending) = some i at he
      by_cases hvalid : queue.valid = true
      · rw [if_pos hvalid] at he
        obtain rfl := Option.some.inj he
        have hfree := (h.abortedRecord slot hi ha).1
        rw [(hcond hvalid).1] at hfree
        cases hfree
      · rw [if_neg hvalid] at he
        exact (h.abortedQueue i hi ha).1 he
    · exact (h.abortedQueue i hi ha).2

/-- An invitation is aborted. -/
theorem InviteInv.abort {s : InviteTasks K} (h : InviteInv s)
    (hcond : InviteStep.Unhurried s .abort) : InviteInv s.abort := by
  rw [InviteTasks.abort]
  cases hslot : s.pendingContactSlot with
  | none => exact h
  | some slot =>
    obtain ⟨hwaits, hearlier, hown, hothers⟩ := hcond slot hslot
    have hlt : slot < maxContacts := by
      rw [InviteTasks.pendingContactSlot, Option.filter_eq_some_iff] at hslot
      simp only [Bool.and_eq_true, decide_eq_true_eq] at hslot
      exact hslot.2.1.1
    have hhas : ∀ i, ({ s with
        dev := s.dev.abortPendingContact slot
        handshakeContact := none
        aborted := Function.update s.aborted slot true } : InviteTasks K).HasQueue i →
        i ≠ slot ∧ s.HasQueue i := by
      rintro i ⟨hactive, hrest⟩
      change (Function.update s.dev.contacts slot _ i).isActive = true at hactive
      by_cases hi : i = slot
      · subst hi
        rw [Function.update_self] at hactive
        cases hactive
      · rw [Function.update_of_ne hi] at hactive
        exact ⟨hi, hactive, hrest⟩
    refine ⟨h.records.abort slot, fun i hi hq => h.queues i hi (hhas i hq).2, ?_, ?_, ?_, ?_⟩
    · rintro slot' ⟨⟩ i hi hq hkey
      exact hothers i hi (hhas i hq).1 (hhas i hq).2 hkey
    · rintro slot' ⟨⟩
      exact hlt
    · intro i hi ha
      refine ⟨?_, Or.inr (Or.inr rfl)⟩
      change (Function.update s.dev.contacts slot _ i).isActive = false
      change Function.update s.aborted slot true i = true at ha
      by_cases hi' : i = slot
      · subst hi'
        rw [Function.update_self]
        rfl
      · rw [Function.update_of_ne hi'] at ha ⊢
        exact (h.abortedRecord i hi ha).1
    · intro i hi ha
      change Function.update s.aborted slot true i = true at ha
      change s.dev.rqSavePending ≠ some i ∧ (s.dev.nvs (rqKey i) = none ∨
        (some slot = some i ∧ rqKey i ∈ abortedKeys i))
      by_cases hi' : i = slot
      · subst hi'
        exact ⟨hwaits, hown.symm.imp_right fun hkey => ⟨rfl, hkey⟩⟩
      · rw [Function.update_of_ne hi'] at ha
        obtain ⟨hpending, hstored⟩ := h.abortedQueue i hi ha
        refine ⟨hpending, Or.inl (hstored.elim id fun hdelete => ?_)⟩
        rcases hearlier i hdelete.1 with he | he | he
        · exact absurd he hi'
        · rw [he] at ha
          cases ha
        · exact he

/-- The app task does what it was asked for. -/
theorem InviteInv.deferredWork {s : InviteTasks K} (h : InviteInv s) {lands : ℕ → Bool}
    {queueLands : Bool} (hcond : InviteStep.Unhurried s (.deferredWork lands queueLands)) :
    InviteInv (s.deferredWork lands queueLands) := by
  obtain ⟨hlands, rfl⟩ := hcond
  obtain ⟨hcontacts, hqueues, -, hpending, hdelete⟩ :=
    processDeferredWork_requests s.dev lands true
  have hhas : ∀ i, (s.deferredWork lands true).HasQueue i → s.HasQueue i := by
    intro i hq
    rw [InviteTasks.HasQueue, InviteTasks.deferredWork, hcontacts, hqueues] at hq
    exact hq
  refine ⟨fun _ => h.records.deferredWork hlands true, fun i hi hq => Or.inl ?_, ?_, ?_, ?_, ?_⟩
  · obtain ⟨-, hvalid, -⟩ := hhas i hq
    change (s.dev.processDeferredWork lands true).nvs (rqKey i) =
      some (.replyQueue ((s.dev.processDeferredWork lands true).replyQueues i))
    rw [hqueues, (isSlotKey_rqKey i).deferredWork hi]
    by_cases hwaits : s.dev.rqSavePending = some i
    · rw [if_pos ⟨rfl, hwaits, hvalid, rfl⟩]
    · rw [if_neg fun he => hwaits he.2.1, if_neg]
      · exact (h.queues i hi (hhas i hq)).resolve_right hwaits
      · rintro ⟨slot, -, hslot, herased⟩
        exact hwaits (h.cleanup slot hslot i hi (hhas i hq) herased)
  · intro slot hslot
    change slot ∈ (s.dev.processDeferredWork lands true).pendingDeleteSlot at hslot
    rw [hdelete] at hslot
    cases hslot
  · intro slot hslot
    change slot ∈ (s.dev.processDeferredWork lands true).pendingDeleteSlot at hslot
    rw [hdelete] at hslot
    cases hslot
  · intro i hi ha
    obtain ⟨hfree, hstored⟩ := h.abortedRecord i hi ha
    refine ⟨?_, Or.inl (processDeferredWork_free s.dev hlands true hi h.cleanupLt hfree hstored)⟩
    change ((s.dev.processDeferredWork lands true).contacts i).isActive = false
    rw [hcontacts]
    exact hfree
  · intro i hi ha
    obtain ⟨hwaits, hstored⟩ := h.abortedQueue i hi ha
    change (s.dev.processDeferredWork lands true).rqSavePending ≠ some i ∧
      ((s.dev.processDeferredWork lands true).nvs (rqKey i) = none ∨ _)
    rw [hpending, (isSlotKey_rqKey i).deferredWork hi, if_neg fun he => hwaits he.2.1]
    refine ⟨(fun he => nomatch he), Or.inl ?_⟩
    rcases hstored with hnone | ⟨hslot, herased⟩
    · rw [hnone, ite_self]
    · exact if_pos ⟨i, hi, hslot, herased⟩

/-- An unhurried step keeps the invariant. -/
theorem InviteInv.step {s : InviteTasks K} (h : InviteInv s) {step : InviteStep}
    (hcond : step.Unhurried s) : InviteInv (s.step step) := by
  cases step with
  | addContact keys ids => exact h.addContact keys ids
  | createQueue queue => exact h.createQueue hcond
  | abort => exact h.abort hcond
  | deferredWork lands queueLands => exact h.deferredWork hcond
  | scanned slot =>
    exact h.of_same h.records rfl rfl rfl rfl id (fun _ _ hq => hq) fun i hi ha =>
      ⟨ha, (h.abortedRecord i hi ha).1⟩
  | handshakeDone slot =>
    exact h.of_same h.records rfl rfl rfl rfl id (fun _ _ hq => hq) fun i hi ha =>
      ⟨ha, (h.abortedRecord i hi ha).1⟩

/-- When nothing is outstanding, nothing has been lost. -/
theorem InviteInv.nothingLost {s : InviteTasks K} (h : InviteInv s) (hidle : s.Idle) :
    s.NothingLost := by
  obtain ⟨hclean, hpending, hdelete, hadding⟩ := hidle
  refine ⟨fun i hi hactive hvalid => ⟨h.records hclean i hi hactive, ?_⟩, fun i hi ha => ⟨?_, ?_⟩⟩
  · have hq : s.HasQueue i := ⟨hactive, hvalid, by rw [hadding]; exact fun he => nomatch he⟩
    exact (h.queues i hi hq).resolve_right (by rw [hpending]; exact fun he => nomatch he)
  · refine (h.abortedRecord i hi ha).2.resolve_right ?_
    rw [hclean, hdelete]
    simp
  · refine (h.abortedQueue i hi ha).2.resolve_right ?_
    rw [hdelete]
    exact fun he => nomatch he.1

/-! ### A start-up -/

/-- Loading the records leaves the reply queues and the requests. -/
theorem loadContactsFromNvs_requests (dev : ContactDevice K) (lands : ℕ → Bool) :
    (dev.loadContactsFromNvs lands).replyQueues = dev.replyQueues ∧
      (dev.loadContactsFromNvs lands).rqSavePending = dev.rqSavePending ∧
      (dev.loadContactsFromNvs lands).pendingDeleteSlot = dev.pendingDeleteSlot := by
  rw [ContactDevice.loadContactsFromNvs]
  dsimp only
  split
  · exact ⟨rfl, rfl, rfl⟩
  · split
    · split <;> exact ⟨rfl, rfl, rfl⟩
    · exact ⟨rfl, rfl, rfl⟩

/-- After a start-up nothing is asked for, and a valid reply queue is the one in NVS. -/
theorem appMain_requests (P : Primitives K) (dev : ContactDevice K) (env : BootEnv) :
    (dev.appMain P env).rqSavePending = none ∧ (dev.appMain P env).pendingDeleteSlot = none ∧
      ∀ i < maxContacts, ((dev.appMain P env).replyQueues i).valid = true →
        dev.nvs (rqKey i) = some (.replyQueue ((dev.appMain P env).replyQueues i)) := by
  have hload : ∀ d : ContactDevice K,
      d.handshakeLoadState.replyQueues = d.replyQueues ∧
        d.handshakeLoadState.rqSavePending = d.rqSavePending ∧
        d.handshakeLoadState.pendingDeleteSlot = d.pendingDeleteSlot := by
    intro d
    rw [ContactDevice.handshakeLoadState]
    cases ContactDevice.storedHandshake d.nvs d.activeHandshakeIdx <;> exact ⟨rfl, rfl, rfl⟩
  have hstarted : (dev.restoreSession P env).rqSavePending = none ∧
      (dev.restoreSession P env).pendingDeleteSlot = none ∧
      ∀ i < maxContacts, ((dev.restoreSession P env).replyQueues i).valid = true →
        dev.nvs (rqKey i) = some (.replyQueue ((dev.restoreSession P env).replyQueues i)) := by
    have hzero : ∀ i, ReplyQueue.zero.valid = true →
        dev.nvs (rqKey i) = some (.replyQueue .zero) := fun _ hv => Bool.noConfusion hv
    have hbase : ∀ (ratchet : RatchetState K) (queue : Option OurQueue) (stored : Bool),
        let loaded := if stored = true then ({ dev.resetRam P with
          ratchetState := ratchet
          ourQueue := queue } : ContactDevice K).handshakeLoadState else dev.resetRam P
        loaded.replyQueues = (fun _ => .zero) ∧ loaded.rqSavePending = none ∧
          loaded.pendingDeleteSlot = none ∧ loaded.nvs = dev.nvs := by
      intro ratchet queue stored
      cases stored with
      | false => exact ⟨rfl, rfl, rfl, rfl⟩
      | true =>
        simp only [if_true]
        obtain ⟨h₁, h₂, h₃⟩ := hload { dev.resetRam P with
          ratchetState := ratchet
          ourQueue := queue }
        exact ⟨h₁, h₂, h₃, (handshakeLoadState_records _).1⟩
    obtain ⟨hqueues, hpending, hdelete, hnvs⟩ := hbase
      ((ratchetLoadState dev.nvs 0).getD (dev.resetRam P).ratchetState)
      (ContactDevice.queueLoadCredentials dev.nvs) (ContactDevice.sessionStored dev.nvs)
    rw [ContactDevice.restoreSession]
    by_cases hrestored : ContactDevice.sessionRestored dev.nvs = true
    · rw [if_pos hrestored]
      refine ⟨hpending, hdelete, fun i hi hvalid => ?_⟩
      simp only [ContactDevice.replyQueuesLoadAll, if_pos hi, ContactDevice.loadedReplyQueue]
        at hvalid ⊢
      rw [hqueues, hnvs] at hvalid ⊢
      rw [if_neg (show ¬ ReplyQueue.zero.valid = true from Bool.false_ne_true)] at hvalid ⊢
      cases hblob : dev.nvs (rqKey i) with
      | none =>
        rw [hblob] at hvalid
        cases hvalid
      | some blob =>
        rw [hblob] at hvalid
        cases blob with
        | replyQueue q =>
          dsimp only at hvalid ⊢
          by_cases hq : q.valid = true
          · rw [if_pos hq]
          · rw [if_neg hq] at hvalid
            cases hvalid
        | _ => cases hvalid
    · rw [if_neg hrestored]
      cases env.queueCreated with
      | none =>
        refine ⟨hpending, hdelete, fun i _ hvalid => ?_⟩
        rw [hqueues] at hvalid ⊢
        exact hzero i hvalid
      | some queue =>
        refine ⟨hpending, hdelete, fun i _ hvalid => ?_⟩
        dsimp only at hvalid ⊢
        rw [hqueues] at hvalid ⊢
        exact hzero i hvalid
  have hload' : ∀ d : ContactDevice K, d.clearAllContacts.replyQueues = d.replyQueues ∧
      d.clearAllContacts.rqSavePending = d.rqSavePending ∧
      d.clearAllContacts.pendingDeleteSlot = d.pendingDeleteSlot := fun _ => ⟨rfl, rfl, rfl⟩
  rw [ContactDevice.appMain]
  split
  · exact hstarted
  · split
    · obtain ⟨h₁, h₂, h₃⟩ := loadContactsFromNvs_requests (dev.restoreSession P env) env.lands
      rw [h₁, h₂, h₃]
      exact hstarted
    · obtain ⟨h₁, h₂, h₃⟩ :=
        loadContactsFromNvs_requests (dev.restoreSession P env).clearAllContacts env.lands
      rw [h₁, h₂, h₃]
      exact hstarted

/-- A start-up satisfies the invariant. -/
theorem inviteInv_start (P : Primitives K) (dev : ContactDevice K) {env : BootEnv}
    (hlands : ∀ j, env.lands j = true) : InviteInv (InviteTasks.start (dev.appMain P env)) := by
  obtain ⟨-, hdelete, hqueues⟩ := appMain_requests P dev env
  have hnone : ∀ slot, slot ∉ (dev.appMain P env).pendingDeleteSlot := by
    intro slot hslot
    rw [hdelete] at hslot
    cases hslot
  refine ⟨fun _ => activeSaved_appMain P dev hlands, fun i hi hq => Or.inl ?_,
    fun slot hslot => absurd hslot (hnone slot), fun slot hslot => absurd hslot (hnone slot),
    fun _ _ ha => Bool.noConfusion ha, fun _ _ ha => Bool.noConfusion ha⟩
  change (dev.appMain P env).nvs (rqKey i) = _
  rw [((isSlotKey_rqKey i).appMain P dev env).2]
  exact hqueues i hi hq.2.1

/-- In a run from a start-up in which no request is overtaken, nothing has been lost whenever
nothing is outstanding. -/
theorem deferred_work_keeps_all (P : Primitives K) (dev : ContactDevice K)
    (queueCreated : Option OurQueue) (connects : Bool) {steps : List InviteStep}
    (hsteps : StepsMeet InviteTasks.step (fun s step => step.Unhurried s)
      (InviteTasks.start (dev.appMain P ⟨queueCreated, connects, fun _ => true⟩)) steps)
    (hidle : (runFrom InviteTasks.step
      (InviteTasks.start (dev.appMain P ⟨queueCreated, connects, fun _ => true⟩)) steps).Idle) :
    (runFrom InviteTasks.step
      (InviteTasks.start (dev.appMain P ⟨queueCreated, connects, fun _ => true⟩))
      steps).NothingLost :=
  (hsteps.invariant (fun _ _ h hcond => h.step hcond)
    (inviteInv_start P dev fun _ => rfl)).nothingLost hidle

/-- A reply queue that the server has made. -/
def sampleQueue : ReplyQueue := { ReplyQueue.zero with valid := true }

/-- The tasks of a new device. -/
def newInviteTasks : InviteTasks SymKey :=
  InviteTasks.start ((ContactDevice.blank symbolic).appMain symbolic plainStart)

/-- Nothing is stored, asked for or used. -/
structure InviteTasks.IsNew (s : InviteTasks K) : Prop where
  contacts : s.dev.contacts = fun _ => .zero
  stored : ∀ i, s.dev.nvs (rqKey i) = none
  rqSavePending : s.dev.rqSavePending = none
  pendingDelete : s.dev.pendingDeleteSlot = none
  adding : s.adding = none

/-- The tasks start with the device that was started. -/
theorem InviteTasks.start_dev (dev : ContactDevice K) : (InviteTasks.start dev).dev = dev := rfl

/-- So it is on a new device. -/
theorem newInviteTasks_isNew : newInviteTasks.IsNew := by
  have hnot : ContactDevice.sessionRestored (ContactDevice.blank symbolic).nvs = false := by
    rw [ContactDevice.sessionRestored, ContactDevice.sessionStored]
    rfl
  have hconnects : plainStart.connects = true := rfl
  have hwiped := appMain_wipes symbolic (ContactDevice.blank symbolic) hnot hconnects
  obtain ⟨hpending, hdelete, -⟩ :=
    appMain_requests symbolic (ContactDevice.blank symbolic) plainStart
  refine ⟨?_, fun i => ?_, hpending, hdelete, rfl⟩
  · exact (congrArg ContactDevice.contacts hwiped).trans rfl
  · have hkept := ((isSlotKey_rqKey i).appMain symbolic (ContactDevice.blank symbolic) plainStart).2
    rw [newInviteTasks, InviteTasks.start_dev, hkept]
    rfl

/-- A contact of zeros made in a free slot. -/
theorem addContact_of_free {s : InviteTasks K} (hadding : s.adding = none) {slot : ℕ}
    (hslot : s.dev.freeSlot = some slot) :
    s.addContact zeroContactKeys (some zeroQueueIds) =
      { s with
        dev := { s.dev with
          contacts := Function.update s.dev.contacts slot
            (ContactDevice.createdContact zeroContactKeys zeroQueueIds)
          numContacts := s.dev.numContacts + 1
          contactsDirty := true }
        handshakeContact := some slot
        scannedNotified := Function.update s.scannedNotified slot false
        adding := some slot
        aborted := Function.update s.aborted slot false } := by
  rw [InviteTasks.addContact, hadding, ContactDevice.addContact, hslot]
  rfl

/-- The first slot of a new device is free. -/
theorem InviteTasks.IsNew.freeSlot {s : InviteTasks K} (h : s.IsNew) :
    s.dev.freeSlot = some 0 := by
  rw [ContactDevice.freeSlot, h.contacts]
  decide

/-- One invitation, made and saved. -/
def oneInvitation : List InviteStep :=
  [.addContact zeroContactKeys (some zeroQueueIds), .createQueue sampleQueue,
    .deferredWork (fun _ => true) true]

/-- With one invitation no request is overtaken, and at the end nothing is outstanding. -/
theorem InviteTasks.IsNew.oneInvitation {s : InviteTasks K} (h : s.IsNew) :
    StepsMeet InviteTasks.step (fun s step => step.Unhurried s) s oneInvitation ∧
      (runFrom InviteTasks.step s SimpleGo.oneInvitation).Idle := by
  have hadded := addContact_of_free h.adding h.freeSlot
  rw [SimpleGo.oneInvitation]
  simp only [stepsMeet_cons, stepsMeet_nil, runFrom_cons, runFrom_nil, InviteTasks.step, hadded]
  refine ⟨⟨trivial, ?_, ⟨fun _ => rfl, rfl⟩, trivial⟩, ?_⟩
  · rintro slot ⟨⟩ -
    refine ⟨by simp only [Function.update_self]; rfl, fun j hj => ?_⟩
    change j ∈ s.dev.rqSavePending at hj
    rw [h.rqSavePending] at hj
    cases hj
  · obtain ⟨-, -, hclean, hnone, hdelete⟩ := processDeferredWork_requests
      (InviteTasks.createQueue { s with
        dev := { s.dev with
          contacts := Function.update s.dev.contacts 0
            (ContactDevice.createdContact zeroContactKeys zeroQueueIds)
          numContacts := s.dev.numContacts + 1
          contactsDirty := true }
        handshakeContact := some 0
        scannedNotified := Function.update s.scannedNotified 0 false
        adding := some 0
        aborted := Function.update s.aborted 0 false } sampleQueue).dev (fun _ => true) true
    exact ⟨hclean, hnone, hdelete, rfl⟩

/-- One invitation is stored. -/
theorem deferred_work_keeps_one :
    (runFrom InviteTasks.step newInviteTasks oneInvitation).NothingLost :=
  deferred_work_keeps_all symbolic (ContactDevice.blank symbolic) none true
    newInviteTasks_isNew.oneInvitation.1 newInviteTasks_isNew.oneInvitation.2

/-- Two invitations before the app task gets to its deferred work. -/
def twoInvitations : List InviteStep :=
  [.addContact zeroContactKeys (some zeroQueueIds), .createQueue sampleQueue,
    .addContact zeroContactKeys (some zeroQueueIds), .createQueue sampleQueue,
    .deferredWork (fun _ => true) true]

/-- What the app task finds after two invitations: the request names the second slot only. -/
theorem InviteTasks.IsNew.twoInvitations {s : InviteTasks K} (h : s.IsNew) :
    ∃ before : InviteTasks K,
      runFrom InviteTasks.step s twoInvitations = before.deferredWork (fun _ => true) true ∧
        before.dev.rqSavePending = some 1 ∧ before.adding = none ∧
        (before.dev.contacts 0).isActive = true ∧ (before.dev.replyQueues 0).valid = true ∧
        before.dev.nvs (rqKey 0) = none ∧ before.dev.pendingDeleteSlot = none := by
  have hfirst := addContact_of_free h.adding h.freeSlot
  have hslot : ((s.addContact zeroContactKeys
      (some zeroQueueIds)).createQueue sampleQueue).dev.freeSlot = some 1 := by
    rw [hfirst]
    simp only [InviteTasks.createQueue, ContactDevice.freeSlot, h.contacts]
    decide
  have hidle : ((s.addContact zeroContactKeys
      (some zeroQueueIds)).createQueue sampleQueue).adding = none := by
    rw [hfirst]
    rfl
  refine ⟨_, rfl, ?_⟩
  simp only [InviteTasks.step, addContact_of_free hidle hslot]
  rw [hfirst]
  exact ⟨rfl, rfl, rfl, rfl, h.stored 0, h.pendingDelete⟩

/-- The reply queue of the first invitation is never saved. -/
theorem first_reply_queue_lost :
    (runFrom InviteTasks.step newInviteTasks twoInvitations).Idle ∧
      ¬ (runFrom InviteTasks.step newInviteTasks twoInvitations).NothingLost := by
  obtain ⟨before, hrun, hpending, hadding, hactive, hvalid, hnone, hdelete⟩ :=
    newInviteTasks_isNew.twoInvitations
  obtain ⟨hcontacts, hqueues, hclean, hdone, hdeleted⟩ :=
    processDeferredWork_requests before.dev (fun _ => true) true
  rw [hrun]
  refine ⟨⟨hclean, hdone, hdeleted, hadding⟩, fun hlost => ?_⟩
  have hstored := (hlost.1 0 (by decide) (by
    rw [InviteTasks.deferredWork, hcontacts]
    exact hactive) (by
    rw [InviteTasks.deferredWork, hqueues]
    exact hvalid)).2
  rw [InviteTasks.deferredWork, (isSlotKey_rqKey 0).deferredWork (by decide), hpending,
    if_neg (by rintro ⟨-, h, -⟩; cases h), hdelete, if_neg (by rintro ⟨slot, -, h, -⟩; cases h),
    hnone] at hstored
  cases hstored

end SimpleGo
