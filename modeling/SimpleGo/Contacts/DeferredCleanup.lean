import SimpleGo.Contacts.DeferredWork

/-!
# The deferred cleanup and the next contact of the slot

An aborted invitation frees its slot at once, and the app task cleans up later, by the slot it
finds in `s_pending_delete_slot`. In between, the network task may have made a new contact in
that slot. The deferred work is no single step: it looks at the three requests one after the
other, and the other tasks run between them.

What belongs to the contact now in a slot is recorded beside the source's variables: the keys
stored for it, and whether a message of its handshake was noted.
-/

namespace SimpleGo

open Lib

variable {K : Type}

/-- The tasks, with what there is of the contact in each slot. -/
structure CleanupTasks (K : Type) where
  tasks : InviteTasks K
  /-- The keys written for the contact since it was made. -/
  stored : ℕ → List String
  /-- Its first message or its handshake has been noted. -/
  noted : ℕ → Bool

/-- The steps of the network task, the UI and the app task. The deferred work is three steps:
the save of the records, the cleanup and the save of the reply queue. -/
inductive CleanupStep (K : Type) where
  | addContact (keys : ContactDevice.ContactKeys) (ids : Option ContactDevice.QueueIds)
  | createQueue (queue : ReplyQueue)
  | abort
  | scanned (slot : ℕ)
  | handshakeDone (slot : ℕ)
  /-- A key of the contact in a slot is written while its messages are handled. -/
  | write (slot : ℕ) (key : String) (hkey : IsSlotKey slot key) (blob : Blob K)
  | saveRecords (lands : ℕ → Bool)
  | cleanup (lands : ℕ → Bool)
  | saveQueue (lands : Bool)

namespace CleanupTasks

variable (s : CleanupTasks K)

/-- The contact made in a slot has nothing yet. -/
def addContact (keys : ContactDevice.ContactKeys) (ids : Option ContactDevice.QueueIds) :
    CleanupTasks K :=
  let added := s.tasks.addContact keys ids
  match s.tasks.dev.freeSlot with
  | none => { s with tasks := added }
  | some slot =>
    if s.tasks.adding.isSome then { s with tasks := added }
    else
      { tasks := added
        stored := Function.update s.stored slot []
        noted := Function.update s.noted slot false }

/-- A key is written. -/
def write (slot : ℕ) (key : String) (blob : Blob K) : CleanupTasks K :=
  { s with
    tasks := { s.tasks with dev := { s.tasks.dev with nvs := s.tasks.dev.nvs.put key blob } }
    stored := Function.update s.stored slot (key :: s.stored slot) }

/-- The part of the deferred work that cleans up, with `smp_clear_42d`. -/
def cleanup (lands : ℕ → Bool) : CleanupTasks K :=
  let cleared (bits : ℕ → Bool) : ℕ → Bool :=
    match s.tasks.dev.pendingDeleteSlot with
    | none => bits
    | some slot => Function.update bits slot false
  { s with tasks := { s.tasks with
      dev := s.tasks.dev.abortCleanup lands
      done42d := cleared s.tasks.done42d
      scannedNotified := cleared s.tasks.scannedNotified } }

/-- The part that saves a reply queue. -/
def saveQueue (lands : Bool) : CleanupTasks K :=
  let saved := { s with tasks := { s.tasks with dev := s.tasks.dev.saveDeferredQueue lands } }
  match s.tasks.dev.rqSavePending with
  | none => saved
  | some slot =>
    { saved with stored := Function.update s.stored slot (rqKey slot :: s.stored slot) }

/-- The tasks after a step. -/
def step : CleanupStep K → CleanupTasks K
  | .addContact keys ids => s.addContact keys ids
  | .createQueue queue => { s with tasks := s.tasks.createQueue queue }
  | .abort => { s with tasks := s.tasks.abort }
  | .scanned slot =>
    { s with
      tasks := s.tasks.step (.scanned slot)
      noted := Function.update s.noted slot true }
  | .handshakeDone slot =>
    { s with
      tasks := s.tasks.step (.handshakeDone slot)
      noted := Function.update s.noted slot true }
  | .write slot key _ blob => s.write slot key blob
  | .saveRecords lands =>
    { s with tasks := { s.tasks with dev := s.tasks.dev.saveDirtyContacts lands } }
  | .cleanup lands => s.cleanup lands
  | .saveQueue lands => s.saveQueue lands

/-- The three steps after one another are the deferred work. -/
theorem deferredWork_eq (lands : ℕ → Bool) (queueLands : Bool) :
    (runFrom step s [.saveRecords lands, .cleanup lands, .saveQueue queueLands]).tasks =
      s.tasks.deferredWork lands queueLands := by
  have hpending : (s.tasks.dev.saveDirtyContacts lands).pendingDeleteSlot =
      s.tasks.dev.pendingDeleteSlot := (saveDirtyContacts_same s.tasks.dev lands).2.2
  have hsaved : ∀ t : CleanupTasks K, (t.saveQueue queueLands).tasks =
      { t.tasks with dev := t.tasks.dev.saveDeferredQueue queueLands } := by
    intro t
    rw [saveQueue]
    cases t.tasks.dev.rqSavePending <;> rfl
  simp only [runFrom_cons, runFrom_nil, step, hsaved, cleanup, InviteTasks.deferredWork, hpending]
  rfl

/-! ### What a cleanup must keep -/

/-- The contact in the slot keeps what is stored for it and what RAM has of it. -/
structure KeptIn (i : ℕ) (s' : CleanupTasks K) : Prop where
  stored : ∀ key ∈ s.stored i, s'.tasks.dev.nvs key = s.tasks.dev.nvs key
  record : (s.tasks.dev.nvs (cntKey i)).isSome = true →
    (s'.tasks.dev.nvs (cntKey i)).isSome = true
  ram : SameSessions s.tasks.dev s'.tasks.dev
  replyQueues : s'.tasks.dev.replyQueues = s.tasks.dev.replyQueues
  contacts : s'.tasks.dev.contacts = s.tasks.dev.contacts
  handshake : s.noted i = true → s'.tasks.done42d i = s.tasks.done42d i ∧
    s'.tasks.scannedNotified i = s.tasks.scannedNotified i

/-- A cleanup spares the contact that has been made in the slot since the abort. -/
def SparesSuccessor : CleanupStep K → Prop
  | .cleanup lands => ∀ i ∈ s.tasks.dev.pendingDeleteSlot,
      (s.tasks.dev.contacts i).isActive = true → s.KeptIn i (s.cleanup lands)
  | _ => True

/-- The slot has a contact, and the cleanup of the one before it is still to come. -/
def Overtaken (i : ℕ) : Prop :=
  s.tasks.dev.pendingDeleteSlot = some i ∧ (s.tasks.dev.contacts i).isActive = true

/-- While the cleanup of a slot is to come, no message of a new contact in it is noted, and its
reply queue is not saved if the cleanup deletes that key. -/
def CleanupFirst : CleanupStep K → Prop
  | .scanned slot | .handshakeDone slot => ¬ s.Overtaken slot
  | .write slot key _ _ => key = rqKey slot → slot < 10 → ¬ s.Overtaken slot
  | .saveQueue _ => ∀ slot ∈ s.tasks.dev.rqSavePending, slot < 10 → ¬ s.Overtaken slot
  | _ => True

end CleanupTasks

/-! ### One step -/

/-- The only key of the slot's data that the cleanup names is that of the reply queue. -/
theorem IsSlotKey.mem_abortedKeys_iff {i : ℕ} {key : String} (h : IsSlotKey i key)
    (hi : i < maxContacts) : key ∈ abortedKeys i ↔ key = rqKey i ∧ i < 10 := by
  rw [mem_abortedKeys_other h.saved (ratKey_ne_ratchet i), fmt02x_eq_self hi]

/-- A cleanup stores the record of an active contact, or leaves what is there. -/
theorem abortCleanup_record (dev : ContactDevice K) (lands : ℕ → Bool) {i : ℕ}
    (hi : i < maxContacts) (hactive : (dev.contacts i).isActive = true)
    (hstored : (dev.nvs (cntKey i)).isSome = true) :
    ((dev.abortCleanup lands).nvs (cntKey i)).isSome = true := by
  rw [ContactDevice.abortCleanup]
  cases dev.pendingDeleteSlot with
  | none => exact hstored
  | some slot =>
    dsimp only
    by_cases hslot : slot < maxContacts
    · rw [if_pos hslot, ContactDevice.saveContactsToNvs]
      dsimp only
      rw [Store.setFamily_key _ _ _ cntKey_injOn hi, Store.eraseAll_apply,
        if_neg (cntKey_not_mem_abortedKeys slot i), if_pos hactive]
      cases lands i with
      | true => rfl
      | false => exact hstored
    · rw [if_neg hslot]
      exact hstored

/-- `add_contact` works on the first free slot. -/
theorem addContact_slots (s : InviteTasks K) (keys : ContactDevice.ContactKeys)
    (ids : Option ContactDevice.QueueIds) :
    (s.addContact keys ids).dev.pendingDeleteSlot = s.dev.pendingDeleteSlot ∧
      ∀ i, s.dev.freeSlot ≠ some i ∨ s.adding.isSome = true →
        (s.addContact keys ids).dev.contacts i = s.dev.contacts i := by
  rw [InviteTasks.addContact]
  by_cases hadding : s.adding.isSome = true
  · rw [if_pos hadding]
    exact ⟨rfl, fun _ _ => rfl⟩
  · rw [if_neg hadding, ContactDevice.addContact]
    cases hfree : s.dev.freeSlot with
    | none => exact ⟨rfl, fun _ _ => rfl⟩
    | some slot =>
      have hne : ∀ i, some slot ≠ some i ∨ s.adding.isSome = true → i ≠ slot := by
        rintro i (h | h)
        · exact fun hi => h (congrArg some hi.symm)
        · exact absurd h hadding
      cases ids with
      | none => exact ⟨rfl, fun i h => Function.update_of_ne (hne i h) ..⟩
      | some ids => exact ⟨rfl, fun i h => Function.update_of_ne (hne i h) ..⟩

/-- The save of a reply queue leaves contacts and requests for a cleanup. -/
theorem saveDeferredQueue_slots (dev : ContactDevice K) (lands : Bool) :
    (dev.saveDeferredQueue lands).contacts = dev.contacts ∧
      (dev.saveDeferredQueue lands).pendingDeleteSlot = dev.pendingDeleteSlot := by
  rw [ContactDevice.saveDeferredQueue]
  cases dev.rqSavePending with
  | none => exact ⟨rfl, rfl⟩
  | some slot =>
    dsimp only
    rw [ContactDevice.replyQueueSave]
    split_ifs <;> exact ⟨rfl, rfl⟩

/-- So does the save of the records. -/
theorem saveDirtyContacts_slots (dev : ContactDevice K) (lands : ℕ → Bool) :
    (dev.saveDirtyContacts lands).contacts = dev.contacts := by
  rw [ContactDevice.saveDirtyContacts]
  split_ifs <;> rfl

/-- A cleanup leaves the contacts, and no request. -/
theorem abortCleanup_slots (dev : ContactDevice K) (lands : ℕ → Bool) :
    (dev.abortCleanup lands).contacts = dev.contacts ∧
      (dev.abortCleanup lands).pendingDeleteSlot = none := by
  rw [ContactDevice.abortCleanup]
  cases hpending : dev.pendingDeleteSlot with
  | none => exact ⟨rfl, hpending⟩
  | some slot =>
    dsimp only
    split_ifs <;> exact ⟨rfl, rfl⟩

/-! ### Runs -/

/-- A contact whose slot waits for a cleanup has no reply queue stored that the cleanup would
delete, and no message of it has been noted. -/
structure CleanupInv (s : CleanupTasks K) : Prop where
  slotKeys : ∀ i, ∀ key ∈ s.stored i, IsSlotKey i key
  pending_lt : ∀ i ∈ s.tasks.dev.pendingDeleteSlot, i < maxContacts
  overtaken : ∀ i, s.Overtaken i → (i < 10 → rqKey i ∉ s.stored i) ∧ s.noted i = false

namespace CleanupInv

variable {s : CleanupTasks K}

/-- The invariant is about the contacts, the request and what is recorded. -/
theorem congr (h : CleanupInv s) {s' : CleanupTasks K} (hstored : s'.stored = s.stored)
    (hnoted : s'.noted = s.noted) (hcontacts : s'.tasks.dev.contacts = s.tasks.dev.contacts)
    (hpending : s'.tasks.dev.pendingDeleteSlot = s.tasks.dev.pendingDeleteSlot) :
    CleanupInv s' := by
  refine ⟨?_, ?_, fun i hi => ?_⟩
  · rw [hstored]
    exact h.slotKeys
  · rw [hpending]
    exact h.pending_lt
  · rw [hstored, hnoted]
    rw [CleanupTasks.Overtaken, hpending, hcontacts] at hi
    exact h.overtaken i hi

/-- A message is noted for a contact that does not wait for a cleanup. -/
theorem note (h : CleanupInv s) {slot : ℕ} (hslot : ¬ s.Overtaken slot) :
    CleanupInv { s with noted := Function.update s.noted slot true } := by
  refine ⟨h.slotKeys, h.pending_lt, fun i hi => ⟨(h.overtaken i hi).1, ?_⟩⟩
  have hne : i ≠ slot := fun he => hslot (he ▸ hi)
  exact (Function.update_of_ne hne ..).trans (h.overtaken i hi).2

/-- A key is stored for a contact. -/
theorem store (h : CleanupInv s) {slot : ℕ} {key : String} (hkey : IsSlotKey slot key)
    (hslot : key = rqKey slot → slot < 10 → ¬ s.Overtaken slot) :
    CleanupInv { s with stored := Function.update s.stored slot (key :: s.stored slot) } := by
  refine ⟨fun i other hother => ?_, h.pending_lt, fun i hi => ⟨fun hlow hmem => ?_,
    (h.overtaken i hi).2⟩⟩
  · by_cases he : i = slot
    · subst he
      simp only [Function.update_self, List.mem_cons] at hother
      rcases hother with rfl | hother
      · exact hkey
      · exact h.slotKeys i other hother
    · simp only [Function.update_of_ne he] at hother
      exact h.slotKeys i other hother
  · by_cases he : i = slot
    · subst he
      simp only [Function.update_self, List.mem_cons] at hmem
      rcases hmem with hmem | hmem
      · exact hslot hmem.symm hlow hi
      · exact (h.overtaken i hi).1 hlow hmem
    · simp only [Function.update_of_ne he] at hmem
      exact (h.overtaken i hi).1 hlow hmem

/-- A new contact starts with nothing recorded. -/
theorem addContact (h : CleanupInv s) (keys : ContactDevice.ContactKeys)
    (ids : Option ContactDevice.QueueIds) : CleanupInv (s.addContact keys ids) := by
  obtain ⟨hpending, hcontacts⟩ := addContact_slots s.tasks keys ids
  rw [CleanupTasks.addContact]
  cases hfree : s.tasks.dev.freeSlot with
  | none =>
    refine h.congr rfl rfl (funext fun i => hcontacts i (Or.inl ?_)) hpending
    rw [hfree]
    exact nofun
  | some slot =>
    dsimp only
    split_ifs with hadding
    · exact h.congr rfl rfl (funext fun i => hcontacts i (Or.inr hadding)) hpending
    · have hkept : ∀ i, i ≠ slot → (s.tasks.addContact keys ids).dev.contacts i =
          s.tasks.dev.contacts i := by
        intro i hi
        refine hcontacts i (Or.inl ?_)
        rw [hfree]
        exact fun he => hi (Option.some.inj he).symm
      refine ⟨fun i key hkey => ?_, ?_, fun i hi => ?_⟩
      · by_cases he : i = slot
        · subst he
          simp only [Function.update_self, List.not_mem_nil] at hkey
        · simp only [Function.update_of_ne he] at hkey
          exact h.slotKeys i key hkey
      · rw [hpending]
        exact h.pending_lt
      · by_cases he : i = slot
        · subst he
          simp only [Function.update_self]
          exact ⟨fun _ => List.not_mem_nil, trivial⟩
        · simp only [Function.update_of_ne he]
          rw [CleanupTasks.Overtaken, hpending, hkept i he] at hi
          exact h.overtaken i hi

/-- An aborted invitation leaves no contact in its slot. -/
theorem abort (h : CleanupInv s) : CleanupInv { s with tasks := s.tasks.abort } := by
  rw [InviteTasks.abort]
  cases hslot : s.tasks.pendingContactSlot with
  | none => exact h
  | some slot =>
    have hlt : slot < maxContacts := by
      rw [InviteTasks.pendingContactSlot, Option.filter_eq_some_iff] at hslot
      simp only [Bool.and_eq_true, decide_eq_true_eq] at hslot
      exact hslot.2.1.1
    refine ⟨h.slotKeys, ?_, ?_⟩
    · rintro i ⟨⟩
      exact hlt
    · rintro i ⟨hi, hactive⟩
      cases hi
      simp [ContactDevice.abortPendingContact, Contact.isActive] at hactive

/-- A step keeps the invariant. -/
theorem step (h : CleanupInv s) {a : CleanupStep K} (hfirst : s.CleanupFirst a) :
    CleanupInv (s.step a) := by
  cases a with
  | addContact keys ids => exact h.addContact keys ids
  | createQueue queue =>
    have hsame : (s.tasks.createQueue queue).dev.contacts = s.tasks.dev.contacts ∧
        (s.tasks.createQueue queue).dev.pendingDeleteSlot = s.tasks.dev.pendingDeleteSlot := by
      rw [InviteTasks.createQueue]
      cases s.tasks.adding <;> exact ⟨rfl, rfl⟩
    exact h.congr rfl rfl hsame.1 hsame.2
  | abort => exact h.abort
  | scanned slot => exact (h.note hfirst).congr rfl rfl rfl rfl
  | handshakeDone slot => exact (h.note hfirst).congr rfl rfl rfl rfl
  | write slot key hkey blob => exact (h.store hkey hfirst).congr rfl rfl rfl rfl
  | saveRecords lands =>
    exact h.congr rfl rfl (saveDirtyContacts_slots _ _) (saveDirtyContacts_same _ _).2.2
  | cleanup lands =>
    obtain ⟨-, hnone⟩ := abortCleanup_slots s.tasks.dev lands
    refine ⟨h.slotKeys, fun i hi => ?_, fun i hi => ?_⟩
    · exact absurd (hi.symm.trans hnone) (Option.some_ne_none i)
    · exact absurd (hi.1.symm.trans hnone) (Option.some_ne_none i)
  | saveQueue lands =>
    obtain ⟨hcontacts, hpending⟩ := saveDeferredQueue_slots s.tasks.dev lands
    have hsaved : s.step (.saveQueue lands) = s.saveQueue lands := rfl
    rw [hsaved, CleanupTasks.saveQueue]
    cases hslot : s.tasks.dev.rqSavePending with
    | none => exact h.congr rfl rfl hcontacts hpending
    | some slot =>
      exact (h.store (isSlotKey_rqKey slot) fun _ hlow => hfirst slot hslot hlow).congr
        rfl rfl hcontacts hpending

/-- A cleanup spares the new contact of its slot. -/
theorem spares (h : CleanupInv s) (a : CleanupStep K) : s.SparesSuccessor a := by
  cases a with
  | cleanup lands =>
    intro i hpending hactive
    obtain ⟨hqueue, hnoted⟩ := h.overtaken i ⟨hpending, hactive⟩
    have hi := h.pending_lt i hpending
    obtain ⟨hsessions, hrequests⟩ := abortCleanup_same s.tasks.dev lands
    refine ⟨fun key hmem => ?_, abortCleanup_record s.tasks.dev lands hi hactive, hsessions,
      hrequests.replyQueues, (abortCleanup_slots s.tasks.dev lands).1, fun hn => ?_⟩
    · have hkey := h.slotKeys i key hmem
      change (s.tasks.dev.abortCleanup lands).nvs key = s.tasks.dev.nvs key
      rw [hkey.abortCleanup, if_neg]
      rintro ⟨slot, -, hslot, haborted⟩
      obtain rfl := Option.some.inj (hslot.symm.trans hpending)
      obtain ⟨rfl, hlow⟩ := (hkey.mem_abortedKeys_iff hi).mp haborted
      exact hqueue hlow hmem
    · rw [hnoted] at hn
      cases hn
  | _ => trivial

end CleanupInv

/-- In every interleaving in which the app task does nothing for a new contact before the
cleanup of its slot, no cleanup takes anything from the contact that is in the slot by then. -/
theorem cleanup_spares_successor {s : CleanupTasks K} {steps : List (CleanupStep K)}
    (hpending : s.tasks.dev.pendingDeleteSlot = none) (hstored : ∀ i, s.stored i = [])
    (h : StepsMeet CleanupTasks.step CleanupTasks.CleanupFirst s steps) :
    StepsMeet CleanupTasks.step CleanupTasks.SparesSuccessor s steps := by
  have hstart : CleanupInv s := by
    refine ⟨fun i key hkey => ?_, fun i hi => ?_, fun i hi => ?_⟩
    · rw [hstored] at hkey
      cases hkey
    · rw [hpending] at hi
      cases hi
    · exact absurd (hpending.symm.trans hi.1) nofun
  exact h.invariant_step (fun _ _ hinv hfirst => hinv.step hfirst) (fun _ a hinv _ => hinv.spares a)
    hstart

/-- An invitation in slot 0 that nobody has scanned. -/
def openInvitation : CleanupTasks SymKey where
  tasks := { InviteTasks.start (ContactDevice.blank symbolic) with
    dev := { ContactDevice.blank symbolic with
      contacts := Function.update (fun _ => .zero) 0 { Contact.zero with active := 1 } }
    handshakeContact := some 0 }
  stored := fun _ => []
  noted := fun _ => false

/-- The cleanup is run before the app task saves anything for the next contact. -/
theorem cleanup_spares_successor_in_time :
    StepsMeet CleanupTasks.step CleanupTasks.SparesSuccessor openInvitation
      [.abort, .addContact zeroContactKeys (some zeroQueueIds), .createQueue sampleQueue,
        .cleanup fun _ => true, .saveQueue true] :=
  cleanup_spares_successor rfl (fun _ => rfl)
    ⟨trivial, trivial, trivial, trivial, fun _ _ _ h => (nomatch h.1), trivial⟩

/-- The invitation is aborted, and the next contact made, after the deferred work has looked for
a cleanup and before it saves the reply queue. -/
def overtakenCleanup : List (CleanupStep SymKey) :=
  [.saveRecords fun _ => true, .cleanup fun _ => true, .abort,
    .addContact zeroContactKeys (some zeroQueueIds), .createQueue sampleQueue]

/-- The reply queue is saved, and the next cleanup deletes it. -/
theorem cleanup_deletes_successor :
    ¬ StepsMeet CleanupTasks.step CleanupTasks.SparesSuccessor openInvitation
      (overtakenCleanup ++
        [.saveQueue true, .saveRecords fun _ => true, .cleanup fun _ => true]) := by
  rw [stepsMeet_append]
  rintro ⟨-, -, -, hspares, -⟩
  have hkey := isSlotKey_rqKey 0
  have hkept := (hspares 0 rfl rfl).stored (rqKey 0) List.mem_cons_self
  have hdeleted := hkey.abortCleanup
    (((runFrom CleanupTasks.step openInvitation overtakenCleanup).step (.saveQueue true)).step
      (.saveRecords fun _ => true)).tasks.dev fun _ => true
  rw [if_pos ⟨0, by decide, rfl, (hkey.mem_abortedKeys_iff (by decide)).mpr ⟨rfl, by decide⟩⟩]
    at hdeleted
  have hsaved : (((runFrom CleanupTasks.step openInvitation
      overtakenCleanup).tasks.dev.saveDeferredQueue true).saveDirtyContacts fun _ => true).nvs
        (rqKey 0) = some (.replyQueue sampleQueue) := by
    rw [hkey.saveDirty, hkey.saveQueue (by decide), if_pos ⟨rfl, rfl, rfl, rfl⟩]
    rfl
  have hnone := hdeleted.symm.trans (hkept.trans hsaved)
  cases hnone

end SimpleGo
