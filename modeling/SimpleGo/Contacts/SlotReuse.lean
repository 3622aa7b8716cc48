import SimpleGo.Contacts.Restore

/-!
# Reusing a slot

A slot is freed by a removal or an aborted invitation and later given to a new contact. What
the new contact finds is read back through the functions that select it: the ratchet of
`ratchet_set_active`, the counters of `handshake_set_active`, the PQ part and the peer queue
stored in NVS, and its reply queue. In between, the device works on other slots and restarts.

Between the two moments only three things happen to the slot, and an abstract trace of it
follows them: nothing, a switch of the active slot, which saves the handshake entry that was
active, and a restart, which clears RAM.
-/

namespace SimpleGo

open Lib

variable {K : Type}

/-- What a contact of the slot finds. -/
structure SlotView (K : Type) where
  ratchet : RatchetState K
  storedPq : PqKemState
  handshake : HandshakeEntry
  peer : Option PeerQueue
  replyQueue : ReplyQueue

/-- The view of a slot through the functions that select and load it. -/
def slotView (dev : ContactDevice K) (i : ℕ) : SlotView K where
  ratchet := (dev.ratchetSetActive i).ratchetState
  storedPq := pqNvsLoad dev.nvs i .zero
  handshake := (dev.handshakeSetActive i).handshakes i
  peer := ContactDevice.peerLoadState dev.nvs i
  replyQueue := dev.loadedReplyQueue i

/-- The view of a slot that never had a contact, with the reply queue just made for it. -/
def freshView (P : Primitives K) (queue : ReplyQueue) : SlotView K where
  ratchet := .zero P
  storedPq := .zero
  handshake := .zero
  peer := none
  replyQueue := if queue.valid then queue else .zero

/-- A contact leaves its slot: a confirmed removal, or an aborted invitation with the deferred
work after it. NVS accepts every call. -/
def ContactDevice.retireSlot (P : Primitives K) (dev : ContactDevice K) (i : ℕ) :
    SlotDeletion → ContactDevice K
  | .removal => (dev.removeContact P i true fun _ => true).1
  | .abortCleanup => (dev.abortPendingContact i).processDeferredWork (fun _ => true) true

/-- A reuse of a slot: how it is freed, what the device does meanwhile, and the contact added. -/
structure SlotReuse (K : Type) where
  slot : ℕ
  kind : SlotDeletion
  meanwhile : List (ContactAction K)
  keys : ContactDevice.ContactKeys
  ids : ContactDevice.QueueIds
  queue : ReplyQueue

/-- The device before the new contact is added. -/
def SlotReuse.before (P : Primitives K) (r : SlotReuse K) (dev : ContactDevice K) :
    ContactDevice K :=
  runFrom (ContactDevice.step P) (dev.retireSlot P r.slot r.kind) r.meanwhile

/-- The device with the new contact. -/
def SlotReuse.after (P : Primitives K) (r : SlotReuse K) (dev : ContactDevice K) :
    ContactDevice K :=
  (r.before P dev).cmdAddContact r.keys (some r.ids) r.queue

/-- A step is about another slot: it neither selects nor saves this one, and deletes no name
that reads like one of its keys. -/
def ContactAction.Elsewhere (i : ℕ) (dev : ContactDevice K) : ContactAction K → Prop
  | .addContact _ _ _ => dev.freeSlot ≠ some i
  | .rename _ _ _ => True
  | .saveSession slot _ _ => slot ≠ i ∧ slot < maxContacts ∧ dev.activeRatchetIdx ≠ i
  | .saveHandshake _ => dev.activeHandshakeIdx ≠ i
  | .savePeer slot _ => slot ≠ i ∧ slot < maxContacts
  | .select slot => slot ≠ i ∧ slot < maxContacts
  | .deferredWork _ _ =>
    (dev.rqSavePending = some i → (dev.replyQueues i).valid = false) ∧
      ∀ slot, dev.pendingDeleteSlot = some slot → rqKey i ∉ abortedKeys slot
  | .abort slot => slot ≠ i
  | .removeContact index _ _ => index ≠ i ∧ ratKey i ∉ removedKeys index
  | .reboot _ => True

/-- A history in which the reuse takes place: the contact to remove is there, the device works
elsewhere meanwhile, and the new contact gets the slot. Stored ratchets are initialised ones,
as `ratchet_save_state` writes no others. -/
structure SlotReuse.Applies (P : Primitives K) (r : SlotReuse K) (dev : ContactDevice K) :
    Prop where
  slot_lt : r.slot < maxContacts
  removable : r.kind = .removal → (dev.contacts r.slot).isActive = true
  elsewhere : StepsMeet (ContactDevice.step P) (ContactAction.Elsewhere r.slot)
    (dev.retireSlot P r.slot r.kind) r.meanwhile
  picked : (r.before P dev).freeSlot = some r.slot
  initialized : ∀ blob, dev.nvs (ratKey r.slot) = some blob →
    ∃ classical : RatchetClassical K, blob = .ratchet classical ∧ classical.initialized = true
  active_lt : dev.activeHandshakeIdx < maxContacts

/-! ### The trace of a slot -/

/-- What the steps of the device are for a slot they are not about. -/
inductive SlotEvent where
  | other
  | select (slot : ℕ)
  | reboot
  deriving DecidableEq

/-- The part of the device that belongs to a slot: its NVS entries but the handshake, its
ratchet, and its handshake counters in NVS and in RAM with the index of the active entry. -/
structure SlotTrace (K : Type) where
  stored : String → Option (Blob K)
  ratchet : RatchetState K
  counters : Option HandshakeEntry
  entry : HandshakeEntry
  active : ℕ

/-- The trace after an event. -/
def SlotTrace.next (P : Primitives K) (i : ℕ) (t : SlotTrace K) : SlotEvent → SlotTrace K
  | .other => t
  | .select slot =>
    { t with
      counters := if t.active = i then some t.entry else t.counters
      active := slot }
  | .reboot =>
    { t with
      ratchet := .zero P
      entry := .zero
      active := 0 }

/-- The event a step is. -/
def ContactAction.slotEvent : ContactAction K → SlotEvent
  | .select slot => .select slot
  | .reboot _ => .reboot
  | _ => .other

/-- The NVS keys of a slot but the contact record and the handshake. -/
def slotDataKeys (i : ℕ) : List String :=
  [ratKey i, peerKey i, rqKey i] ++ pqSuffixes.map (pqKey i)

/-- The ratchet of a slot: the working copy when it is active. -/
def ContactDevice.slotRatchet (dev : ContactDevice K) (i : ℕ) : RatchetState K :=
  if dev.activeRatchetIdx = i then dev.ratchetState else dev.ratchetStates i

/-- The trace of a slot in a device. -/
def slotTrace (dev : ContactDevice K) (i : ℕ) : SlotTrace K where
  stored := fun key => if key ∈ slotDataKeys i then dev.nvs key else none
  ratchet := dev.slotRatchet i
  counters := ContactDevice.storedHandshake dev.nvs i
  entry := dev.handshakes i
  active := dev.activeHandshakeIdx

/-! ### Steps about other slots -/

/-- A key of the slot other than its contact record. -/
def IsSlotKey (i : ℕ) (key : String) : Prop := key ∈ slotDataKeys i ∨ key = handKey i

/-- The keys a slot keeps data under. -/
theorem mem_slotDataKeys {key : String} {i : ℕ} :
    key ∈ slotDataKeys i ↔ key = ratKey i ∨ key = peerKey i ∨ key = rqKey i ∨
      ∃ f ∈ pqSuffixes, key = pqKey i f := by
  simp [slotDataKeys, eq_comm]

/-- The key of the reply queue is one of the slot's. -/
theorem isSlotKey_rqKey (i : ℕ) : IsSlotKey i (rqKey i) :=
  Or.inl (mem_slotDataKeys.2 (Or.inr (Or.inr (Or.inl rfl))))

/-- A key of the slot is one of its stored entries. -/
theorem IsSlotKey.saved {i : ℕ} {key : String} (h : IsSlotKey i key) :
    key ∈ savedKeys i := by
  rcases h with h | rfl
  · rw [mem_slotDataKeys] at h
    rw [mem_savedKeys]
    rcases h with h | h | h | h
    · exact Or.inl h
    · exact Or.inr (Or.inl h)
    · exact Or.inr (Or.inr (Or.inr (Or.inl h)))
    · exact Or.inr (Or.inr (Or.inr (Or.inr (Or.inr h))))
  · simp [savedKeys]

/-- The families of a slot's keys. -/
theorem IsSlotKey.family {i : ℕ} {key : String} (h : IsSlotKey i key) :
    keyFamily key ∈ [['r', 'a', 't'], ['p', 'e', 'e'], ['r', 'q', '_'], ['p', 'q', '_'],
      ['h', 'a', 'n']] := by
  rcases h with h | rfl
  · rw [mem_slotDataKeys] at h
    rcases h with rfl | rfl | rfl | ⟨f, -, rfl⟩ <;> simp
  · simp

/-- A key of a family that no slot key belongs to. -/
theorem IsSlotKey.ne {i : ℕ} {key other : String} (h : IsSlotKey i key)
    (hother : keyFamily other ∉ [['r', 'a', 't'], ['p', 'e', 'e'], ['r', 'q', '_'],
      ['p', 'q', '_'], ['h', 'a', 'n']]) : key ≠ other := by
  rintro rfl
  exact hother h.family

/-- It is no key of a contact record. -/
theorem IsSlotKey.ne_cntKey {i : ℕ} {key : String} (h : IsSlotKey i key) (j : ℕ) :
    cntKey j ≠ key :=
  (h.ne (by simp)).symm

/-- Saving the contact records leaves the keys of the slot. -/
theorem IsSlotKey.saveContacts {i : ℕ} {key : String} (h : IsSlotKey i key)
    (dev : ContactDevice K) (lands : ℕ → Bool) :
    (dev.saveContactsToNvs lands).nvs key = dev.nvs key :=
  Store.setFamily_of_ne _ _ _ fun j _ => h.ne_cntKey j

/-- A rename writes a contact record. -/
theorem IsSlotKey.rename {i : ℕ} {key : String} (h : IsSlotKey i key) (dev : ContactDevice K)
    (slot : ℕ) (name : Bytes 32) (lands : Bool) :
    (dev.renameContact slot name lands).nvs key = dev.nvs key := by
  rw [ContactDevice.renameContact]
  by_cases hslot : slot < maxContacts ∧ (dev.contacts slot).isActive = true
  · rw [if_pos hslot, ContactDevice.saveContactSingle]
    by_cases hlands : slot < maxContacts ∧ lands = true
    · rw [if_pos hlands]
      dsimp only
      split_ifs
      · exact Store.put_of_ne _ _ (h.ne_cntKey slot).symm
      · exact Store.erase_of_ne _ (h.ne_cntKey slot).symm
    · rw [if_neg hlands]
  · rw [if_neg hslot]

/-- Two slots have no key in common. -/
theorem savedKeys_disjoint {i j : ℕ} (hi : i < maxContacts) (hj : j < maxContacts) (hij : j ≠ i)
    {key : String} (h : key ∈ savedKeys i) : key ∉ savedKeys j := by
  have hi' : i < 256 := Nat.lt_trans hi (by decide)
  have hj' : j < 256 := Nat.lt_trans hj (by decide)
  intro hmem
  rw [mem_savedKeys] at h hmem
  rcases h with rfl | rfl | rfl | rfl | rfl | ⟨f, -, rfl⟩ <;>
    rcases hmem with h | h | h | h | h | ⟨g, -, h⟩ <;>
    have hfamily := congrArg keyFamily h <;> simp at hfamily
  · have hslots := fmt02u_inj (by omega) (by omega) ((String.append_right_inj _).mp h)
    exact hij hslots.symm
  · exact hij (fmt02x_inj hj' hi' ((String.append_right_inj _).mp h).symm)
  · exact hij (fmt02x_inj hj' hi' ((String.append_right_inj _).mp h).symm)
  · exact hij (fmt02x_inj hj' hi' ((String.append_right_inj _).mp h).symm)
  · exact hij (fmt02x_inj hj' hi' ((String.append_right_inj _).mp h).symm)
  · exact hij (pqKey_slot_inj hi' hj' h).symm

/-- The writes of a session in another slot leave the keys of the slot. -/
theorem IsSlotKey.saveSession {i slot : ℕ} {key : String} (h : IsSlotKey i key)
    (hi : i < maxContacts) (hslot : slot < maxContacts) (hne : slot ≠ i) (nvs : Nvs K)
    (st : RatchetState K) (lands : ℕ → Bool) :
    nvs.putAll (Store.landed lands (ratchetSaveState slot st ++ pqNvsSave slot st.pq)) key =
      nvs key := by
  have hdisjoint := savedKeys_disjoint hi hslot hne h.saved
  apply Store.putAll_of_forall_ne
  intro w hw hkey
  have hmem := (Store.landed_sublist lands _).subset hw
  apply hdisjoint
  rw [← hkey, mem_savedKeys]
  rcases List.mem_append.mp hmem with hsave | hsave
  · rw [mem_ratchetSaveState hsave]
    exact Or.inl rfl
  · obtain ⟨field, hfield, hwrite⟩ := mem_pqNvsSave hsave
    exact Or.inr (Or.inr (Or.inr (Or.inr (Or.inr ⟨field, hfield, hwrite⟩))))

/-- Saving the records for the deferred request leaves the keys of the slot. -/
theorem IsSlotKey.saveDirty {i : ℕ} {key : String} (h : IsSlotKey i key) (dev : ContactDevice K)
    (lands : ℕ → Bool) : (dev.saveDirtyContacts lands).nvs key = dev.nvs key := by
  rw [ContactDevice.saveDirtyContacts]
  by_cases hdirty : dev.contactsDirty = true
  · rw [if_pos hdirty]
    exact h.saveContacts _ _
  · rw [if_neg hdirty]

/-- The cleanup of an aborted invitation erases the names it forms. -/
theorem IsSlotKey.abortCleanup {i : ℕ} {key : String} (h : IsSlotKey i key)
    (dev : ContactDevice K) (lands : ℕ → Bool) :
    (dev.abortCleanup lands).nvs key =
      if ∃ slot < maxContacts, dev.pendingDeleteSlot = some slot ∧ key ∈ abortedKeys slot then none
      else dev.nvs key := by
  rw [ContactDevice.abortCleanup]
  cases hpending : dev.pendingDeleteSlot with
  | none => simp
  | some slot =>
    dsimp only
    by_cases hslot : slot < maxContacts
    · rw [if_pos hslot, h.saveContacts]
      dsimp only
      rw [Store.eraseAll_apply]
      simp [hslot]
    · rw [if_neg hslot]
      simp [hslot]

/-- The save of a reply queue writes the key of its slot. -/
theorem IsSlotKey.saveQueue {i : ℕ} {key : String} (h : IsSlotKey i key) (hi : i < maxContacts)
    (dev : ContactDevice K) (lands : Bool) :
    (dev.saveDeferredQueue lands).nvs key =
      if key = rqKey i ∧ dev.rqSavePending = some i ∧ (dev.replyQueues i).valid = true ∧
        lands = true then some (.replyQueue (dev.replyQueues i)) else dev.nvs key := by
  rw [ContactDevice.saveDeferredQueue]
  cases hpending : dev.rqSavePending with
  | none => simp
  | some slot =>
    dsimp only
    rw [ContactDevice.replyQueueSave]
    by_cases hsave : slot < maxContacts ∧ (dev.replyQueues slot).valid = true ∧ lands = true
    · rw [if_pos hsave]
      dsimp only
      by_cases hslot : slot = i
      · subst hslot
        by_cases hkey : key = rqKey slot
        · subst hkey
          simp [hsave]
        · rw [Store.put_of_ne _ _ hkey, if_neg fun he => hkey he.1]
      · have hkey : key ≠ rqKey slot := by
          rintro rfl
          exact savedKeys_disjoint hi hsave.1 hslot h.saved (by simp [savedKeys])
        rw [Store.put_of_ne _ _ hkey, if_neg fun he => hslot (Option.some.inj he.2.1)]
    · rw [if_neg hsave]
      dsimp only
      rw [if_neg]
      rintro ⟨-, hslot, hvalid⟩
      obtain rfl := Option.some.inj hslot
      exact hsave ⟨hi, hvalid⟩

/-- Two devices with the same ratchets and handshakes in RAM. -/
structure SameSessions (dev dev' : ContactDevice K) : Prop where
  ratchetStates : dev'.ratchetStates = dev.ratchetStates
  ratchetState : dev'.ratchetState = dev.ratchetState
  activeRatchetIdx : dev'.activeRatchetIdx = dev.activeRatchetIdx
  handshakes : dev'.handshakes = dev.handshakes
  activeHandshakeIdx : dev'.activeHandshakeIdx = dev.activeHandshakeIdx

/-- The requests for the app task and the reply queues are the same. -/
structure SameRequests (dev dev' : ContactDevice K) : Prop where
  rqSavePending : dev'.rqSavePending = dev.rqSavePending
  replyQueues : dev'.replyQueues = dev.replyQueues

/-- What two steps keep, both together keep. -/
theorem SameSessions.trans {dev dev' dev'' : ContactDevice K} (h : SameSessions dev dev')
    (h' : SameSessions dev' dev'') : SameSessions dev dev'' :=
  ⟨h'.ratchetStates.trans h.ratchetStates, h'.ratchetState.trans h.ratchetState,
    h'.activeRatchetIdx.trans h.activeRatchetIdx, h'.handshakes.trans h.handshakes,
    h'.activeHandshakeIdx.trans h.activeHandshakeIdx⟩

/-- The deferred contact save touches no session and no request. -/
theorem saveDirtyContacts_same (dev : ContactDevice K) (lands : ℕ → Bool) :
    SameSessions dev (dev.saveDirtyContacts lands) ∧
      SameRequests dev (dev.saveDirtyContacts lands) ∧
      (dev.saveDirtyContacts lands).pendingDeleteSlot = dev.pendingDeleteSlot := by
  rw [ContactDevice.saveDirtyContacts]
  split_ifs <;> exact ⟨⟨rfl, rfl, rfl, rfl, rfl⟩, ⟨rfl, rfl⟩, rfl⟩

/-- The cleanup after an abort touches no session in RAM. -/
theorem abortCleanup_same (dev : ContactDevice K) (lands : ℕ → Bool) :
    SameSessions dev (dev.abortCleanup lands) ∧ SameRequests dev (dev.abortCleanup lands) := by
  rw [ContactDevice.abortCleanup]
  cases dev.pendingDeleteSlot with
  | none => exact ⟨⟨rfl, rfl, rfl, rfl, rfl⟩, ⟨rfl, rfl⟩⟩
  | some slot =>
    dsimp only
    split_ifs <;> exact ⟨⟨rfl, rfl, rfl, rfl, rfl⟩, ⟨rfl, rfl⟩⟩

/-- The deferred queue save touches no session. -/
theorem saveDeferredQueue_same (dev : ContactDevice K) (lands : Bool) :
    SameSessions dev (dev.saveDeferredQueue lands) := by
  rw [ContactDevice.saveDeferredQueue]
  cases dev.rqSavePending with
  | none => exact ⟨rfl, rfl, rfl, rfl, rfl⟩
  | some slot =>
    dsimp only
    rw [ContactDevice.replyQueueSave]
    split_ifs <;> exact ⟨rfl, rfl, rfl, rfl, rfl⟩

/-- The deferred work changes no session in RAM. -/
theorem processDeferredWork_same (dev : ContactDevice K) (lands : ℕ → Bool) (queueLands : Bool) :
    SameSessions dev (dev.processDeferredWork lands queueLands) :=
  ((saveDirtyContacts_same dev lands).1.trans (abortCleanup_same _ lands).1).trans
    (saveDeferredQueue_same _ queueLands)

/-- What the deferred work leaves under a key of the slot: the cleanup may erase it, and the
deferred save of the slot's reply queue may write it. -/
theorem IsSlotKey.deferredWork {i : ℕ} {key : String} (h : IsSlotKey i key)
    (hi : i < maxContacts) (dev : ContactDevice K) (lands : ℕ → Bool) (queueLands : Bool) :
    (dev.processDeferredWork lands queueLands).nvs key =
      if key = rqKey i ∧ dev.rqSavePending = some i ∧ (dev.replyQueues i).valid = true ∧
        queueLands = true then some (.replyQueue (dev.replyQueues i))
      else if ∃ slot < maxContacts, dev.pendingDeleteSlot = some slot ∧ key ∈ abortedKeys slot
        then none
      else dev.nvs key := by
  obtain ⟨-, hsaved, hpending⟩ := saveDirtyContacts_same dev lands
  obtain ⟨-, hcleaned⟩ := abortCleanup_same (dev.saveDirtyContacts lands) lands
  rw [ContactDevice.processDeferredWork, h.saveQueue hi, h.abortCleanup, h.saveDirty,
    hcleaned.rqSavePending, hsaved.rqSavePending, hcleaned.replyQueues, hsaved.replyQueues,
    hpending]

/-- A removal erases the names it forms. -/
theorem IsSlotKey.removeContact {i : ℕ} {key : String} (h : IsSlotKey i key) (P : Primitives K)
    (dev : ContactDevice K) (index : ℕ) (confirmed : Bool) (lands : ℕ → Bool) :
    (dev.removeContact P index confirmed lands).1.nvs key =
      if index < maxContacts ∧ (dev.contacts index).isActive = true ∧ confirmed = true ∧
        key ∈ removedKeys index then none else dev.nvs key := by
  rw [ContactDevice.removeContact]
  by_cases hactive : ¬ (index < maxContacts ∧ (dev.contacts index).isActive = true)
  · rw [if_pos hactive, if_neg fun he => hactive ⟨he.1, he.2.1⟩]
  · rw [if_neg hactive]
    rw [not_not] at hactive
    cases confirmed with
    | false => simp
    | true =>
      simp only [Bool.not_true, Bool.false_eq_true, if_false]
      rw [h.saveContacts]
      dsimp only
      rw [ContactDevice.ratchetWipeSlot_nvs]
      dsimp only
      rw [Store.eraseAll_apply]
      simp [hactive]

/-- A wipe of another slot's ratchet keeps the slot's. -/
theorem ratchetWipeSlot_slotRatchet (P : Primitives K) (dev : ContactDevice K) {i idx : ℕ}
    (hi : i < maxContacts) (hne : idx ≠ i) :
    (dev.ratchetWipeSlot P idx).slotRatchet i = dev.slotRatchet i := by
  have hwiped : (255 : ℕ) ≠ i := fun h => absurd (h ▸ hi) (by decide)
  rw [ContactDevice.ratchetWipeSlot]
  by_cases hidx : maxContacts ≤ idx
  · rw [if_pos hidx]
  · rw [if_neg hidx, ContactDevice.slotRatchet, ContactDevice.slotRatchet]
    dsimp only
    rw [Function.update_of_ne hne.symm]
    by_cases hactive : idx = dev.activeRatchetIdx
    · simp only [← hactive, if_true, if_neg hne, if_neg hwiped]
    · simp only [if_neg hactive]

/-- A wipe changes no handshake. -/
theorem ratchetWipeSlot_handshakes (P : Primitives K) (dev : ContactDevice K) (idx : ℕ) :
    (dev.ratchetWipeSlot P idx).handshakes = dev.handshakes ∧
      (dev.ratchetWipeSlot P idx).activeHandshakeIdx = dev.activeHandshakeIdx := by
  rw [ContactDevice.ratchetWipeSlot]
  split_ifs <;> exact ⟨rfl, rfl⟩

/-- A removal keeps the ratchet of another slot, and every handshake in RAM. -/
theorem removeContact_same (P : Primitives K) (dev : ContactDevice K) (index : ℕ)
    (confirmed : Bool) (lands : ℕ → Bool) :
    ((∀ i < maxContacts, index ≠ i →
        (dev.removeContact P index confirmed lands).1.slotRatchet i = dev.slotRatchet i)) ∧
      (dev.removeContact P index confirmed lands).1.handshakes = dev.handshakes ∧
      (dev.removeContact P index confirmed lands).1.activeHandshakeIdx =
        dev.activeHandshakeIdx := by
  rw [ContactDevice.removeContact]
  by_cases hactive : ¬ (index < maxContacts ∧ (dev.contacts index).isActive = true)
  · rw [if_pos hactive]
    exact ⟨fun _ _ _ => rfl, rfl, rfl⟩
  · rw [if_neg hactive]
    cases confirmed with
    | false => exact ⟨fun _ _ _ => rfl, rfl, rfl⟩
    | true =>
      obtain ⟨hhandshakes, hactiveIdx⟩ := ratchetWipeSlot_handshakes P { dev with
        contacts := Function.update dev.contacts index .zero
        nvs := dev.nvs.eraseAll (removedKeys index) } index
      refine ⟨fun i hi hne => ?_, hhandshakes, hactiveIdx⟩
      exact ratchetWipeSlot_slotRatchet P { dev with
        contacts := Function.update dev.contacts index .zero
        nvs := dev.nvs.eraseAll (removedKeys index) } hi hne

/-! ### What a restart and a selection do to the slot -/

/-- Loading the contact records changes no session, and no key of the slot. -/
theorem IsSlotKey.load {i : ℕ} {key : String} (h : IsSlotKey i key) (dev : ContactDevice K)
    (lands : ℕ → Bool) :
    SameSessions dev (dev.loadContactsFromNvs lands) ∧
      (dev.loadContactsFromNvs lands).nvs key = dev.nvs key := by
  rw [ContactDevice.loadContactsFromNvs]
  dsimp only
  by_cases hany : ((List.range maxContacts).any fun i =>
      (ContactDevice.loadContact dev.nvs i).isActive) = true
  · rw [if_pos hany]
    exact ⟨⟨rfl, rfl, rfl, rfl, rfl⟩, rfl⟩
  · rw [if_neg hany]
    cases dev.nvs "contacts" with
    | none => exact ⟨⟨rfl, rfl, rfl, rfl, rfl⟩, rfl⟩
    | some blob =>
      cases blob with
      | legacyContacts count old =>
        dsimp only
        by_cases hcount : 0 < count ∧ count ≤ 10
        · rw [if_pos hcount]
          exact ⟨⟨rfl, rfl, rfl, rfl, rfl⟩, h.saveContacts _ _⟩
        · rw [if_neg hcount]
          exact ⟨⟨rfl, rfl, rfl, rfl, rfl⟩, rfl⟩
      | _ => exact ⟨⟨rfl, rfl, rfl, rfl, rfl⟩, rfl⟩

/-- Loading the active handshake entry changes no other entry. -/
theorem handshakeLoadState_other (dev : ContactDevice K) {i : ℕ}
    (hi : dev.activeHandshakeIdx ≠ i) :
    dev.handshakeLoadState.handshakes i = dev.handshakes i ∧
      dev.handshakeLoadState.activeHandshakeIdx = dev.activeHandshakeIdx ∧
      dev.handshakeLoadState.slotRatchet = dev.slotRatchet := by
  rw [ContactDevice.handshakeLoadState]
  cases ContactDevice.storedHandshake dev.nvs dev.activeHandshakeIdx with
  | none => exact ⟨rfl, rfl, rfl⟩
  | some h => exact ⟨Function.update_of_ne hi.symm .., rfl, rfl⟩

/-- After a start-up the handshake entry of slot 0 is active. -/
theorem restoreSession_active (P : Primitives K) (dev : ContactDevice K) (env : BootEnv) :
    (dev.restoreSession P env).activeHandshakeIdx = 0 := by
  have hload : ∀ d : ContactDevice K, d.handshakeLoadState.activeHandshakeIdx =
      d.activeHandshakeIdx := by
    intro d
    rw [ContactDevice.handshakeLoadState]
    cases ContactDevice.storedHandshake d.nvs d.activeHandshakeIdx <;> rfl
  have hloaded : ∀ (d : ContactDevice K) (stored : Bool), d.activeHandshakeIdx = 0 →
      (if stored = true then d.handshakeLoadState else dev.resetRam P).activeHandshakeIdx = 0 := by
    intro d stored hd
    cases stored with
    | false => rfl
    | true => exact (hload d).trans hd
  rw [ContactDevice.restoreSession]
  by_cases hrestored : ContactDevice.sessionRestored dev.nvs = true
  · rw [if_pos hrestored]
    exact hloaded _ _ rfl
  · rw [if_neg hrestored]
    cases env.queueCreated <;> exact hloaded _ _ rfl

/-- After a start-up the RAM of a slot without a stored ratchet is clear. -/
theorem restoreSession_cleared (P : Primitives K) (dev : ContactDevice K) (env : BootEnv) {i : ℕ}
    (hrat : dev.nvs (ratKey i) = none) :
    (dev.restoreSession P env).slotRatchet i = .zero P ∧
      (dev.restoreSession P env).handshakes i = .zero ∧
      (dev.restoreSession P env).activeHandshakeIdx = 0 := by
  rw [ContactDevice.restoreSession]
  by_cases hi : i = 0
  · -- Without the ratchet of slot 0 nothing is loaded.
    subst hi
    have hstored : ContactDevice.sessionStored dev.nvs = false := by
      rw [ContactDevice.sessionStored, smpStorageExists, hrat]
      rfl
    have hrestored : ContactDevice.sessionRestored dev.nvs = false := by
      rw [ContactDevice.sessionRestored, hstored]
      rfl
    simp only [hstored, hrestored, Bool.false_eq_true, if_false]
    cases env.queueCreated <;> exact ⟨rfl, rfl, rfl⟩
  · -- For another slot, what is loaded goes to slot 0.
    have hslot : ∀ d : ContactDevice K, d.activeRatchetIdx = 0 → d.slotRatchet i = d.ratchetStates i :=
      fun d hd => if_neg fun he => hi (he.symm.trans hd)
    have hloaded : ∀ (ratchet : RatchetState K) (queue : Option OurQueue) (stored : Bool),
        let loaded := if stored = true then ({ dev.resetRam P with
          ratchetState := ratchet
          ourQueue := queue } : ContactDevice K).handshakeLoadState else dev.resetRam P
        loaded.activeRatchetIdx = 0 ∧ loaded.ratchetStates i = .zero P ∧
          loaded.handshakes i = .zero ∧ loaded.activeHandshakeIdx = 0 := by
      intro ratchet queue stored
      cases stored with
      | false => exact ⟨rfl, rfl, rfl, rfl⟩
      | true =>
        simp only [if_true]
        rw [ContactDevice.handshakeLoadState]
        dsimp only
        split
        · exact ⟨rfl, rfl, rfl, rfl⟩
        · exact ⟨rfl, rfl, Function.update_of_ne hi .., rfl⟩
    obtain ⟨hidx, hstates, hentry, hactive⟩ := hloaded
      ((ratchetLoadState dev.nvs 0).getD (dev.resetRam P).ratchetState)
      (ContactDevice.queueLoadCredentials dev.nvs) (ContactDevice.sessionStored dev.nvs)
    by_cases hrestored : ContactDevice.sessionRestored dev.nvs = true
    · rw [if_pos hrestored]
      refine ⟨(hslot _ ?_).trans ?_, hentry, hactive⟩
      · exact hidx
      · exact hstates
    · rw [if_neg hrestored]
      cases env.queueCreated <;> refine ⟨(hslot _ ?_).trans ?_, hentry, hactive⟩
      · exact hidx
      · exact hstates
      · exact hidx
      · exact hstates

/-- A start-up clears the RAM of a slot without a stored ratchet and keeps its keys. -/
theorem IsSlotKey.appMain {i : ℕ} {key : String} (h : IsSlotKey i key) (P : Primitives K)
    (dev : ContactDevice K) (env : BootEnv) :
    SameSessions (dev.restoreSession P env) (dev.appMain P env) ∧
      (dev.appMain P env).nvs key = dev.nvs key := by
  have hour : key ≠ "queue_our" := h.ne (by decide)
  have hlegacy : key ≠ "contacts" := h.ne (by decide)
  have hstarted := (restoreSession_records P dev env).2.2.1 key hour
  rw [ContactDevice.appMain]
  by_cases hconnects : env.connects = true
  · simp only [hconnects, Bool.not_true, Bool.false_eq_true, if_false]
    by_cases hrestored : ContactDevice.sessionRestored dev.nvs = true
    · rw [if_pos hrestored]
      obtain ⟨hsame, hkey⟩ := h.load (dev.restoreSession P env) env.lands
      exact ⟨hsame, hkey.trans hstarted⟩
    · rw [if_neg hrestored, clearAllContacts_load]
      have hcleared := (clearAllContacts_nvs (dev.restoreSession P env)).2.2 key hlegacy
        fun j _ => h.ne_cntKey j
      exact ⟨⟨rfl, rfl, rfl, rfl, rfl⟩, hcleared.trans hstarted⟩
  · simp only [hconnects, Bool.not_false, if_true]
    exact ⟨⟨rfl, rfl, rfl, rfl, rfl⟩, hstarted⟩

/-- The table with the working copy put back holds the ratchet of each slot. -/
theorem putBack_eq_slotRatchet (dev : ContactDevice K) {i : ℕ} (hi : i < maxContacts) :
    dev.putBack i = dev.slotRatchet i := by
  rw [ContactDevice.putBack, ContactDevice.slotRatchet]
  by_cases hactive : dev.activeRatchetIdx = i
  · rw [if_pos (hactive ▸ hi), if_pos hactive, ← hactive, Function.update_self]
  · rw [if_neg hactive]
    split_ifs
    · exact Function.update_of_ne (Ne.symm hactive) ..
    · rfl

/-- Selecting a slot finds its ratchet in RAM if it is initialised, else in NVS. -/
theorem ratchetSetActive_found (dev : ContactDevice K) {i : ℕ} (hi : i < maxContacts) :
    (dev.ratchetSetActive i).ratchetState =
      if (dev.slotRatchet i).initialized then dev.slotRatchet i
      else (ratchetReload dev.nvs i).getD (dev.slotRatchet i) := by
  rw [ContactDevice.ratchetSetActive, if_neg (Nat.not_le_of_lt hi)]
  simp only [putBack_eq_slotRatchet dev hi]
  by_cases hinit : (dev.slotRatchet i).initialized = true
  · rw [if_pos hinit, if_pos hinit]
  · rw [if_neg hinit, if_neg hinit]
    cases ratchetReload dev.nvs i <;> rfl

/-- Selecting another slot keeps the ratchet of the slot, and the handshakes. -/
theorem ratchetSetActive_other (dev : ContactDevice K) {i idx : ℕ} (hi : i < maxContacts)
    (hidx : idx < maxContacts) (hne : idx ≠ i) :
    (dev.ratchetSetActive idx).slotRatchet i = dev.slotRatchet i ∧
      (dev.ratchetSetActive idx).handshakes = dev.handshakes ∧
      (dev.ratchetSetActive idx).activeHandshakeIdx = dev.activeHandshakeIdx := by
  rw [ContactDevice.ratchetSetActive, if_neg (Nat.not_le_of_lt hidx)]
  dsimp only
  by_cases hinit : (dev.putBack idx).initialized = true
  · rw [if_pos hinit]
    exact ⟨(if_neg hne).trans (putBack_eq_slotRatchet dev hi), rfl, rfl⟩
  · rw [if_neg hinit]
    cases ratchetReload dev.nvs idx with
    | none => exact ⟨(if_neg hne).trans (putBack_eq_slotRatchet dev hi), rfl, rfl⟩
    | some loaded =>
      refine ⟨(if_neg hne).trans ?_, rfl, rfl⟩
      dsimp only
      rw [Function.update_of_ne hne.symm]
      exact putBack_eq_slotRatchet dev hi

/-- Slots have different handshake keys. -/
theorem handKey_ne {i j : ℕ} (hi : i < maxContacts) (hj : j < maxContacts) (hij : i ≠ j) :
    handKey i ≠ handKey j := fun h =>
  hij (fmt02x_inj (Nat.lt_trans hi (by decide)) (Nat.lt_trans hj (by decide))
    ((String.append_right_inj _).mp h))

/-- Selecting a slot finds its counters in NVS, else in RAM. -/
theorem handshakeSetActive_found (dev : ContactDevice K) {i : ℕ} (hi : i < maxContacts)
    (hactive : dev.activeHandshakeIdx < maxContacts) :
    (dev.handshakeSetActive i).handshakes i =
      (ContactDevice.storedHandshake dev.nvs i).getD (dev.handshakes i) := by
  have hload : ∀ d : ContactDevice K, d.activeHandshakeIdx = i →
      d.handshakeLoadState.handshakes i =
        (ContactDevice.storedHandshake d.nvs i).getD (d.handshakes i) := by
    rintro d rfl
    rw [ContactDevice.handshakeLoadState]
    cases ContactDevice.storedHandshake d.nvs d.activeHandshakeIdx with
    | none => rfl
    | some h => exact Function.update_self ..
  rw [ContactDevice.handshakeSetActive, if_neg (Nat.not_le_of_lt hi)]
  refine (hload _ rfl).trans ?_
  by_cases hne : dev.activeHandshakeIdx ≠ i
  · have hkeep : ContactDevice.storedHandshake dev.handshakeSaveState.nvs i =
        ContactDevice.storedHandshake dev.nvs i := by
      rw [ContactDevice.storedHandshake, ContactDevice.storedHandshake,
        ContactDevice.handshakeSaveState]
      dsimp only
      rw [Store.put_of_ne _ _ (handKey_ne hi hactive hne.symm)]
    simp only [if_pos hne, hkeep]
    rfl
  · simp only [if_neg hne]

/-- Selecting another slot stores the counters of the slot if they were active. -/
theorem handshakeSetActive_other (dev : ContactDevice K) {i idx : ℕ} (hi : i < maxContacts)
    (hidx : idx < maxContacts) (hne : idx ≠ i) (hactive : dev.activeHandshakeIdx < maxContacts) :
    (dev.handshakeSetActive idx).slotRatchet i = dev.slotRatchet i ∧
      (dev.handshakeSetActive idx).handshakes i = dev.handshakes i ∧
      (dev.handshakeSetActive idx).activeHandshakeIdx = idx ∧
      ContactDevice.storedHandshake (dev.handshakeSetActive idx).nvs i =
        if dev.activeHandshakeIdx = i then some (dev.handshakes i)
        else ContactDevice.storedHandshake dev.nvs i := by
  rw [ContactDevice.handshakeSetActive, if_neg (Nat.not_le_of_lt hidx)]
  dsimp only
  have hother := handshakeLoadState_other { (if dev.activeHandshakeIdx ≠ idx then
    dev.handshakeSaveState else dev) with activeHandshakeIdx := idx } hne
  have hnvs := (handshakeLoadState_records { (if dev.activeHandshakeIdx ≠ idx then
    dev.handshakeSaveState else dev) with activeHandshakeIdx := idx }).1
  obtain ⟨hentry, hidx', hratchet⟩ := hother
  rw [hentry, hidx', hratchet, hnvs]
  by_cases hsave : dev.activeHandshakeIdx ≠ idx
  · rw [if_pos hsave]
    refine ⟨rfl, rfl, rfl, ?_⟩
    by_cases hmine : dev.activeHandshakeIdx = i
    · rw [if_pos hmine, ContactDevice.storedHandshake, ContactDevice.handshakeSaveState]
      dsimp only
      rw [hmine, Store.put_self]
      rfl
    · rw [if_neg hmine, ContactDevice.storedHandshake, ContactDevice.storedHandshake,
        ContactDevice.handshakeSaveState]
      dsimp only
      rw [Store.put_of_ne _ _ (handKey_ne hi hactive (Ne.symm hmine))]
  · rw [if_neg hsave]
    have hmine : dev.activeHandshakeIdx ≠ i := fun he =>
      hsave fun he' => hne (he'.symm.trans he)
    exact ⟨rfl, rfl, rfl, (if_neg hmine).symm⟩

/-! ### The trace follows the device -/

/-- Sessions that are the same have the same ratchet in the slot. -/
theorem SameSessions.slotRatchet {dev dev' : ContactDevice K} (h : SameSessions dev dev') (i : ℕ) :
    dev'.slotRatchet i = dev.slotRatchet i := by
  rw [ContactDevice.slotRatchet, ContactDevice.slotRatchet, h.activeRatchetIdx, h.ratchetState,
    h.ratchetStates]

/-- Equal keys, ratchet and counters make equal traces. -/
theorem slotTrace_congr {dev dev' : ContactDevice K} {i : ℕ}
    (hnvs : ∀ key, IsSlotKey i key → dev'.nvs key = dev.nvs key)
    (hratchet : dev'.slotRatchet i = dev.slotRatchet i)
    (hentry : dev'.handshakes i = dev.handshakes i)
    (hactive : dev'.activeHandshakeIdx = dev.activeHandshakeIdx) :
    slotTrace dev' i = slotTrace dev i := by
  have hstored : (fun key => if key ∈ slotDataKeys i then dev'.nvs key else none) =
      fun key => if key ∈ slotDataKeys i then dev.nvs key else none := by
    funext key
    by_cases hkey : key ∈ slotDataKeys i
    · rw [if_pos hkey, if_pos hkey, hnvs key (Or.inl hkey)]
    · rw [if_neg hkey, if_neg hkey]
  have hcounters : ContactDevice.storedHandshake dev'.nvs i =
      ContactDevice.storedHandshake dev.nvs i := by
    rw [ContactDevice.storedHandshake, ContactDevice.storedHandshake,
      hnvs (handKey i) (Or.inr rfl)]
  rw [slotTrace, slotTrace, hstored, hratchet, hcounters, hentry, hactive]

/-- The same when the sessions are the same. -/
theorem SameSessions.slotTrace {dev dev' : ContactDevice K} {i : ℕ} (h : SameSessions dev dev')
    (hnvs : ∀ key, IsSlotKey i key → dev'.nvs key = dev.nvs key) :
    SimpleGo.slotTrace dev' i = SimpleGo.slotTrace dev i :=
  slotTrace_congr hnvs (h.slotRatchet i) (congrFun h.handshakes i) h.activeHandshakeIdx

/-- A data key is no handshake key. -/
theorem ne_handKey_of_mem {i j : ℕ} {key : String} (h : key ∈ slotDataKeys i) :
    key ≠ handKey j := by
  rintro rfl
  rcases mem_slotDataKeys.mp h with h | h | h | ⟨f, -, h⟩ <;>
    have hfamily := congrArg keyFamily h <;> simp at hfamily

/-- Traces with the same data keys are equal when their other parts are. -/
theorem slotTrace_eq {dev : ContactDevice K} {i : ℕ} {t : SlotTrace K}
    (hstored : ∀ key, (if key ∈ slotDataKeys i then dev.nvs key else none) = t.stored key)
    (hratchet : dev.slotRatchet i = t.ratchet)
    (hcounters : ContactDevice.storedHandshake dev.nvs i = t.counters)
    (hentry : dev.handshakes i = t.entry) (hactive : dev.activeHandshakeIdx = t.active) :
    slotTrace dev i = t := by
  rw [slotTrace, hratchet, hcounters, hentry, hactive]
  simp only [hstored]

/-- Selecting another slot. -/
theorem slotTrace_select (P : Primitives K) {dev : ContactDevice K} {i slot : ℕ}
    (hi : i < maxContacts) (hactive : dev.activeHandshakeIdx < maxContacts)
    (hslot : slot < maxContacts) (hne : slot ≠ i) :
    slotTrace (dev.step P (.select slot)) i = (slotTrace dev i).next P i (.select slot) := by
  obtain ⟨hnvs, -, -⟩ := ratchetSetActive_records dev slot
  obtain ⟨-, -, hkeys⟩ := handshakeSetActive_records (dev.ratchetSetActive slot) slot
  obtain ⟨hratchet, hentries, hidx⟩ := ratchetSetActive_other dev hi hslot hne
  obtain ⟨hratchet', hentry, hidx', hcounters⟩ :=
    handshakeSetActive_other (dev.ratchetSetActive slot) hi hslot hne (hidx ▸ hactive)
  refine slotTrace_eq (fun key => ?_) (hratchet'.trans hratchet) ?_ ?_ hidx'
  · change _ = if key ∈ slotDataKeys i then dev.nvs key else none
    by_cases hkey : key ∈ slotDataKeys i
    · rw [if_pos hkey, if_pos hkey, ← hnvs]
      exact hkeys key (ne_handKey_of_mem hkey)
    · rw [if_neg hkey, if_neg hkey]
  · refine hcounters.trans ?_
    rw [hidx, hentries, hnvs]
    rfl
  · exact hentry.trans (congrFun hentries i)

/-- A restart. -/
theorem slotTrace_reboot (P : Primitives K) {dev : ContactDevice K} {i : ℕ}
    (hrat : dev.nvs (ratKey i) = none) (env : BootEnv) :
    slotTrace (dev.step P (.reboot env)) i = (slotTrace dev i).next P i .reboot := by
  have hkeys : ∀ key, IsSlotKey i key → (dev.appMain P env).nvs key = dev.nvs key :=
    fun key hkey => (hkey.appMain P dev env).2
  have hhand : IsSlotKey i (handKey i) := Or.inr rfl
  have hsame := (hhand.appMain P dev env).1
  obtain ⟨hratchet, hentry, hactive⟩ := restoreSession_cleared P dev env hrat
  refine slotTrace_eq (fun key => ?_) ((hsame.slotRatchet i).trans hratchet) ?_
    ((congrFun hsame.handshakes i).trans hentry) (hsame.activeHandshakeIdx.trans hactive)
  · change _ = if key ∈ slotDataKeys i then dev.nvs key else none
    by_cases hkey : key ∈ slotDataKeys i
    · rw [if_pos hkey, if_pos hkey]
      exact hkeys key (Or.inl hkey)
    · rw [if_neg hkey, if_neg hkey]
  · change ContactDevice.storedHandshake (dev.appMain P env).nvs i =
      ContactDevice.storedHandshake dev.nvs i
    rw [ContactDevice.storedHandshake, ContactDevice.storedHandshake, hkeys _ hhand]

/-- The trace of a slot in step with the device. -/
theorem slotTrace_step (P : Primitives K) {dev : ContactDevice K} {i : ℕ} (hi : i < maxContacts)
    (hactive : dev.activeHandshakeIdx < maxContacts) (action : ContactAction K)
    (hrat : action.slotEvent = .reboot → dev.nvs (ratKey i) = none)
    (helse : action.Elsewhere i dev) :
    slotTrace (dev.step P action) i = (slotTrace dev i).next P i action.slotEvent := by
  cases action with
  | addContact keys ids queue =>
    have hsame : SameSessions dev (dev.cmdAddContact keys ids queue) := by
      rw [ContactDevice.cmdAddContact, ContactDevice.addContact]
      cases dev.freeSlot with
      | none => exact ⟨rfl, rfl, rfl, rfl, rfl⟩
      | some slot => cases ids <;> exact ⟨rfl, rfl, rfl, rfl, rfl⟩
    exact hsame.slotTrace fun key _ => congrFun (cmdAddContact_nvs dev keys ids queue) key
  | rename slot name lands =>
    have hsame : SameSessions dev (dev.renameContact slot name lands) := by
      rw [ContactDevice.renameContact, ContactDevice.saveContactSingle]
      split_ifs <;> exact ⟨rfl, rfl, rfl, rfl, rfl⟩
    exact hsame.slotTrace fun key hkey => hkey.rename dev slot name lands
  | saveSession slot st lands =>
    obtain ⟨hne, hslot, hidle⟩ := helse
    refine slotTrace_congr (fun key hkey => hkey.saveSession hi hslot hne dev.nvs st lands) ?_ rfl rfl
    rw [ContactDevice.slotRatchet, ContactDevice.slotRatchet]
    exact (if_neg hidle).trans (if_neg hidle).symm
  | saveHandshake entry =>
    refine slotTrace_congr (fun key hkey => ?_) rfl ?_ rfl
    · have hne : key ≠ handKey dev.activeHandshakeIdx := by
        rintro rfl
        exact savedKeys_disjoint hi hactive helse hkey.saved (by simp [savedKeys])
      exact Store.put_of_ne dev.nvs (.handshake (Function.update dev.handshakes
        dev.activeHandshakeIdx entry dev.activeHandshakeIdx) 1) hne
    · exact Function.update_of_ne (Ne.symm helse) ..
  | savePeer slot peer =>
    refine SameSessions.slotTrace ⟨rfl, rfl, rfl, rfl, rfl⟩ fun key hkey => ?_
    have hne : key ≠ peerKey slot := by
      rintro rfl
      exact savedKeys_disjoint hi helse.2 helse.1 hkey.saved (by simp [savedKeys])
    exact Store.put_of_ne dev.nvs (.peer peer) hne
  | select slot => exact slotTrace_select P hi hactive helse.2 helse.1
  | deferredWork lands queueLands =>
    refine (processDeferredWork_same dev lands queueLands).slotTrace fun key hkey => ?_
    have hqueue : ¬ (key = rqKey i ∧ dev.rqSavePending = some i ∧
        (dev.replyQueues i).valid = true ∧ queueLands = true) := by
      rintro ⟨-, hpending, hvalid, -⟩
      exact Bool.noConfusion ((helse.1 hpending).symm.trans hvalid)
    have hclean : ¬ ∃ slot < maxContacts, dev.pendingDeleteSlot = some slot ∧
        key ∈ abortedKeys slot := by
      rintro ⟨slot, -, hpending, hmem⟩
      obtain ⟨rfl, -⟩ := (mem_abortedKeys_other hkey.saved (ratKey_ne_ratchet i)).mp hmem
      exact helse.2 slot hpending hmem
    change (dev.processDeferredWork lands queueLands).nvs key = dev.nvs key
    rw [hkey.deferredWork hi, if_neg hqueue, if_neg hclean]
  | abort slot => exact SameSessions.slotTrace ⟨rfl, rfl, rfl, rfl, rfl⟩ fun _ _ => rfl
  | removeContact index confirmed lands =>
    obtain ⟨hne, hmiss⟩ := helse
    obtain ⟨hratchet, hentries, hidx⟩ := removeContact_same P dev index confirmed lands
    refine slotTrace_congr (fun key hkey => ?_) (hratchet i hi hne) (congrFun hentries i) hidx
    change (dev.removeContact P index confirmed lands).1.nvs key = dev.nvs key
    rw [hkey.removeContact, if_neg]
    rintro ⟨hindex, -, -, hmem⟩
    obtain ⟨rfl, -⟩ := (mem_removedKeys_other hindex hi hne.symm hkey.saved).mp hmem
    exact hmiss hmem
  | reboot env => exact slotTrace_reboot P (hrat rfl) env

/-- Steps elsewhere keep the data keys of the slot. -/
theorem dataKey_step (P : Primitives K) {dev : ContactDevice K} {i : ℕ} (hi : i < maxContacts)
    (hactive : dev.activeHandshakeIdx < maxContacts) (action : ContactAction K)
    (helse : action.Elsewhere i dev) {key : String} (hkey : key ∈ slotDataKeys i) :
    (dev.step P action).nvs key = dev.nvs key := by
  by_cases hreboot : action.slotEvent = .reboot
  · cases action <;> cases hreboot
    exact (IsSlotKey.appMain (Or.inl hkey) P dev _).2
  · have htrace := slotTrace_step P hi hactive action (fun h => absurd h hreboot) helse
    have hstored := congrFun (congrArg SlotTrace.stored htrace) key
    have hnext : ((slotTrace dev i).next P i action.slotEvent).stored = (slotTrace dev i).stored := by
      cases action.slotEvent <;> rfl
    rw [hnext] at hstored
    simpa only [slotTrace, if_pos hkey] using hstored

/-- The active handshake entry stays one of the table. -/
theorem active_lt_step (P : Primitives K) {dev : ContactDevice K} {i : ℕ} (hi : i < maxContacts)
    (hactive : dev.activeHandshakeIdx < maxContacts) (action : ContactAction K)
    (helse : action.Elsewhere i dev) :
    (dev.step P action).activeHandshakeIdx < maxContacts := by
  by_cases hreboot : action.slotEvent = .reboot
  · cases action <;> cases hreboot
    have hhand : IsSlotKey i (handKey i) := Or.inr rfl
    change (dev.appMain P _).activeHandshakeIdx < maxContacts
    rw [(hhand.appMain P dev _).1.activeHandshakeIdx, restoreSession_active]
    decide
  · have htrace := slotTrace_step P hi hactive action (fun h => absurd h hreboot) helse
    have hidx := congrArg SlotTrace.active htrace
    change (dev.step P action).activeHandshakeIdx = _ at hidx
    rw [hidx]
    cases hevent : action.slotEvent with
    | other => exact hactive
    | select slot =>
      cases action <;> cases hevent
      exact helse.2
    | reboot => exact absurd hevent hreboot

/-- The trace of a slot in a run. -/
theorem slotTrace_run (P : Primitives K) {dev : ContactDevice K} {i : ℕ} (hi : i < maxContacts)
    (hactive : dev.activeHandshakeIdx < maxContacts) (hrat : dev.nvs (ratKey i) = none)
    {actions : List (ContactAction K)}
    (helse : StepsMeet (ContactDevice.step P) (ContactAction.Elsewhere i) dev actions) :
    slotTrace (runFrom (ContactDevice.step P) dev actions) i =
      runFrom (SlotTrace.next P i) (slotTrace dev i) (actions.map ContactAction.slotEvent) := by
  induction actions generalizing dev with
  | nil => rfl
  | cons action actions ih =>
    have hkey : ratKey i ∈ slotDataKeys i := by simp [slotDataKeys]
    have hstep := slotTrace_step P hi hactive action (fun _ => hrat) helse.1
    have hrat' := (dataKey_step P hi hactive action helse.1 hkey).trans hrat
    rw [runFrom_cons, ih (active_lt_step P hi hactive action helse.1) hrat' helse.2, hstep]
    rfl

/-! ### What is left after the events -/

/-- The event is a restart. -/
def SlotEvent.isReboot : SlotEvent → Bool
  | .reboot => true
  | _ => false

/-- The event is a selection. -/
def SlotEvent.isSelect : SlotEvent → Bool
  | .select _ => true
  | _ => false

/-- Another slot is selected before the first restart. -/
def selectedFirst (events : List SlotEvent) : Bool :=
  (events.takeWhile fun e => !e.isReboot).any SlotEvent.isSelect

/-- Another slot is selected after a restart. -/
def selectedLater (events : List SlotEvent) : Bool :=
  (events.dropWhile fun e => !e.isReboot).any SlotEvent.isSelect

/-- Nothing is left of the counters: the entry in RAM is stored by the first selection if it
was active, it is cleared by a restart, and the cleared entry of slot 0 is stored by a
selection after a restart. -/
def CountersForgotten (i : ℕ) (entry : HandshakeEntry) (stored : Option HandshakeEntry)
    (active : ℕ) (events : List SlotEvent) : Prop :=
  let kept := if active = i ∧ selectedFirst events = true then some entry else stored
  if events.any SlotEvent.isReboot then
    (i = 0 ∧ selectedLater events = true) ∨ kept.getD .zero = .zero
  else kept.getD entry = .zero

/-- The ratchet survives unless there is a restart. -/
theorem SlotTrace.run_ratchet (P : Primitives K) (i : ℕ) (t : SlotTrace K)
    (events : List SlotEvent) :
    (runFrom (SlotTrace.next P i) t events).ratchet =
      if events.any SlotEvent.isReboot then .zero P else t.ratchet := by
  induction events generalizing t with
  | nil => rfl
  | cons e events ih =>
    rw [runFrom_cons, ih, List.any_cons]
    cases e with
    | other => rfl
    | select slot => rfl
    | reboot => simp [SlotEvent.isReboot, SlotTrace.next]

/-- After a restart the counters are those stored, unless slot 0 is cleared. -/
theorem SlotTrace.run_counters_restarted (P : Primitives K) {i : ℕ} (t : SlotTrace K)
    {events : List SlotEvent} (htargets : ∀ slot, SlotEvent.select slot ∈ events → slot ≠ i)
    (hentry : t.entry = .zero)
    (hactive : if i = 0 then t.active = 0 ∨ t.counters = some .zero else t.active ≠ i) :
    (runFrom (SlotTrace.next P i) t events).counters.getD
        (runFrom (SlotTrace.next P i) t events).entry = .zero ↔
      (i = 0 ∧ events.any SlotEvent.isSelect = true) ∨ t.counters.getD .zero = .zero := by
  induction events generalizing t with
  | nil => simp [hentry]
  | cons e events ih =>
    have htargets' : ∀ slot, SlotEvent.select slot ∈ events → slot ≠ i := fun slot hslot =>
      htargets slot (List.mem_cons_of_mem _ hslot)
    rw [runFrom_cons]
    cases e with
    | other =>
      rw [ih (t.next P i .other) htargets' hentry hactive]
      simp [SlotTrace.next, SlotEvent.isSelect]
    | reboot =>
      rw [ih _ htargets' rfl]
      · simp [SlotTrace.next, SlotEvent.isSelect]
      · by_cases hi : i = 0
        · rw [if_pos hi]
          exact Or.inl rfl
        · rw [if_neg hi]
          exact Ne.symm hi
    | select slot =>
      have hslot : slot ≠ i := htargets slot List.mem_cons_self
      by_cases hi : i = 0
      · -- The cleared entry of slot 0 has been stored.
        rw [if_pos hi] at hactive
        have hcleared : (t.next P i (.select slot)).counters = some .zero := by
          rcases hactive with hidx | hcounters
          · simp [SlotTrace.next, hidx, hi, hentry]
          · by_cases hidx : t.active = i <;> simp [SlotTrace.next, hidx, hentry, hcounters]
        rw [ih (t.next P i (.select slot)) htargets' hentry
          (by rw [if_pos hi]; exact Or.inr hcleared), hcleared]
        simp [hi, SlotEvent.isSelect]
      · rw [if_neg hi] at hactive
        have hkept : (t.next P i (.select slot)).counters = t.counters := if_neg hactive
        rw [ih (t.next P i (.select slot)) htargets' hentry (by rw [if_neg hi]; exact hslot), hkept]
        simp [hi]

/-- What is left of the counters, in general. -/
theorem SlotTrace.run_counters (P : Primitives K) {i : ℕ} (t : SlotTrace K)
    {events : List SlotEvent} (htargets : ∀ slot, SlotEvent.select slot ∈ events → slot ≠ i) :
    (runFrom (SlotTrace.next P i) t events).counters.getD
        (runFrom (SlotTrace.next P i) t events).entry = .zero ↔
      CountersForgotten i t.entry t.counters t.active events := by
  induction events generalizing t with
  | nil => simp [CountersForgotten, selectedFirst]
  | cons e events ih =>
    have htargets' : ∀ slot, SlotEvent.select slot ∈ events → slot ≠ i := fun slot hslot =>
      htargets slot (List.mem_cons_of_mem _ hslot)
    rw [runFrom_cons]
    cases e with
    | other =>
      rw [ih _ htargets']
      simp [CountersForgotten, selectedFirst, selectedLater, SlotTrace.next, SlotEvent.isSelect,
        SlotEvent.isReboot]
    | reboot =>
      rw [SlotTrace.run_counters_restarted P _ htargets' rfl]
      · simp [CountersForgotten, selectedFirst, selectedLater, SlotTrace.next, SlotEvent.isSelect,
          SlotEvent.isReboot]
      · by_cases hi : i = 0
        · rw [if_pos hi]
          exact Or.inl rfl
        · rw [if_neg hi]
          exact Ne.symm hi
    | select slot =>
      have hslot : slot ≠ i := htargets slot List.mem_cons_self
      rw [ih _ htargets']
      simp [CountersForgotten, selectedFirst, selectedLater, SlotTrace.next, SlotEvent.isSelect,
        SlotEvent.isReboot, hslot]

/-! ### What the new contact finds -/

/-- The reply queue that `reply_queue_load` finds in NVS. -/
def ContactDevice.storedReplyQueue (nvs : Nvs K) (i : ℕ) : Option ReplyQueue :=
  match nvs (rqKey i) with
  | some (.replyQueue q) => if q.valid then some q else none
  | _ => none

/-- The loaded reply queue is the one in RAM or the stored one. -/
theorem loadedReplyQueue_eq (dev : ContactDevice K) (i : ℕ) :
    dev.loadedReplyQueue i = if (dev.replyQueues i).valid then dev.replyQueues i
      else (ContactDevice.storedReplyQueue dev.nvs i).getD .zero := by
  rw [ContactDevice.loadedReplyQueue, ContactDevice.storedReplyQueue]
  by_cases hvalid : (dev.replyQueues i).valid = true
  · rw [if_pos hvalid, if_pos hvalid]
  · rw [if_neg hvalid, if_neg hvalid]
    cases dev.nvs (rqKey i) with
    | none => rfl
    | some blob =>
      cases blob with
      | replyQueue q =>
        dsimp only
        split_ifs <;> rfl
      | _ => rfl

/-- A stored reply queue that is found is valid. -/
theorem storedReplyQueue_valid {nvs : Nvs K} {i : ℕ} {q : ReplyQueue}
    (h : ContactDevice.storedReplyQueue nvs i = some q) : q.valid = true := by
  rw [ContactDevice.storedReplyQueue] at h
  split at h
  · split_ifs at h with hvalid
    obtain rfl := Option.some.inj h
    exact hvalid
  · cases h

/-- The reply queue the new contact finds is its own, or nothing is stored. -/
theorem newReplyQueue_fresh_iff (nvs : Nvs K) (i : ℕ) (queue : ReplyQueue) :
    (if queue.valid then queue else (ContactDevice.storedReplyQueue nvs i).getD .zero) =
        (if queue.valid then queue else .zero) ↔
      queue.valid = true ∨ ContactDevice.storedReplyQueue nvs i = none := by
  by_cases hvalid : queue.valid = true
  · simp [hvalid]
  · rw [if_neg hvalid, if_neg hvalid]
    cases hstored : ContactDevice.storedReplyQueue nvs i with
    | none => simp
    | some q =>
      have hq := storedReplyQueue_valid hstored
      constructor
      · rintro rfl
        cases hq
      · rintro (h | h)
        · exact absurd h hvalid
        · cases h

/-- Steps elsewhere keep the data keys of the slot, in a run. -/
theorem dataKey_run (P : Primitives K) {dev : ContactDevice K} {i : ℕ} (hi : i < maxContacts)
    (hactive : dev.activeHandshakeIdx < maxContacts) {actions : List (ContactAction K)}
    (helse : StepsMeet (ContactDevice.step P) (ContactAction.Elsewhere i) dev actions) :
    (runFrom (ContactDevice.step P) dev actions).activeHandshakeIdx < maxContacts ∧
      ∀ key ∈ slotDataKeys i,
        (runFrom (ContactDevice.step P) dev actions).nvs key = dev.nvs key := by
  induction actions generalizing dev with
  | nil => exact ⟨hactive, fun _ _ => rfl⟩
  | cons action actions ih =>
    obtain ⟨hlt, hkeys⟩ := ih (active_lt_step P hi hactive action helse.1) helse.2
    exact ⟨hlt, fun key hkey =>
      (hkeys key hkey).trans (dataKey_step P hi hactive action helse.1 hkey)⟩

/-- Steps elsewhere select other slots. -/
theorem elsewhere_targets (P : Primitives K) {dev : ContactDevice K} {i : ℕ}
    {actions : List (ContactAction K)}
    (helse : StepsMeet (ContactDevice.step P) (ContactAction.Elsewhere i) dev actions) (slot : ℕ)
    (hslot : SlotEvent.select slot ∈ actions.map ContactAction.slotEvent) : slot ≠ i := by
  induction actions generalizing dev with
  | nil => cases hslot
  | cons action actions ih =>
    rw [List.map_cons, List.mem_cons] at hslot
    rcases hslot with hevent | hmem
    · cases action <;> cases hevent
      exact helse.1.1
    · exact ih helse.2 hmem

/-- The new contact is added to the first free slot with its own reply queue. -/
theorem cmdAddContact_picked {dev : ContactDevice K} {i : ℕ} (hpicked : dev.freeSlot = some i)
    (keys : ContactDevice.ContactKeys) (ids : ContactDevice.QueueIds) (queue : ReplyQueue) :
    SameSessions dev (dev.cmdAddContact keys (some ids) queue) ∧
      (dev.cmdAddContact keys (some ids) queue).replyQueues i = queue := by
  rw [ContactDevice.cmdAddContact, ContactDevice.addContact, hpicked]
  exact ⟨⟨rfl, rfl, rfl, rfl, rfl⟩, Function.update_self ..⟩

/-- What the new contact finds in a slot freed earlier, in terms of the device at that time. -/
theorem slotView_fresh_iff (P : Primitives K) {dev : ContactDevice K} {i : ℕ} (hi : i < maxContacts)
    (hactive : dev.activeHandshakeIdx < maxContacts)
    (hinit : ∀ blob, dev.nvs (ratKey i) = some blob →
      ∃ classical : RatchetClassical K, blob = .ratchet classical ∧ classical.initialized = true)
    {actions : List (ContactAction K)}
    (helse : StepsMeet (ContactDevice.step P) (ContactAction.Elsewhere i) dev actions)
    (hpicked : (runFrom (ContactDevice.step P) dev actions).freeSlot = some i)
    (keys : ContactDevice.ContactKeys) (ids : ContactDevice.QueueIds) (queue : ReplyQueue) :
    slotView ((runFrom (ContactDevice.step P) dev actions).cmdAddContact keys (some ids) queue) i =
        freshView P queue ↔
      dev.nvs (ratKey i) = none ∧
        ((actions.map ContactAction.slotEvent).any SlotEvent.isReboot = true ∨
          dev.slotRatchet i = .zero P) ∧
        pqNvsLoad dev.nvs i .zero = .zero ∧ ContactDevice.peerLoadState dev.nvs i = none ∧
        (queue.valid = true ∨ ContactDevice.storedReplyQueue dev.nvs i = none) ∧
        CountersForgotten i (dev.handshakes i) (ContactDevice.storedHandshake dev.nvs i)
          dev.activeHandshakeIdx (actions.map ContactAction.slotEvent) := by
  obtain ⟨hlt, hkeys⟩ := dataKey_run P hi hactive helse
  have hrun : dev.nvs (ratKey i) = none → slotTrace (runFrom (ContactDevice.step P) dev actions) i =
      runFrom (SlotTrace.next P i) (slotTrace dev i) (actions.map ContactAction.slotEvent) :=
    fun hrat => slotTrace_run P hi hactive hrat helse
  have htargets := elsewhere_targets P helse
  generalize runFrom (ContactDevice.step P) dev actions = final at hlt hkeys hrun hpicked ⊢
  obtain ⟨hsame, hqueue⟩ := cmdAddContact_picked hpicked keys ids queue
  have hnvs := cmdAddContact_nvs final keys (some ids) queue
  generalize final.cmdAddContact keys (some ids) queue = added at hsame hqueue hnvs ⊢
  have hkeys' : ∀ key ∈ slotDataKeys i, added.nvs key = dev.nvs key := fun key hkey =>
    (congrFun hnvs key).trans (hkeys key hkey)
  have hrat : added.nvs (ratKey i) = dev.nvs (ratKey i) := hkeys' _ (by simp [slotDataKeys])
  have hpq : pqNvsLoad added.nvs i .zero = pqNvsLoad dev.nvs i .zero :=
    pqNvsLoad_congr (fun field hfield => hkeys' _ (mem_slotDataKeys.mpr
      (Or.inr (Or.inr (Or.inr ⟨field, hfield, rfl⟩))))) _
  have hpeer : ContactDevice.peerLoadState added.nvs i = ContactDevice.peerLoadState dev.nvs i := by
    rw [ContactDevice.peerLoadState, ContactDevice.peerLoadState,
      hkeys' _ (by simp [slotDataKeys])]
  have hrq : ContactDevice.storedReplyQueue added.nvs i =
      ContactDevice.storedReplyQueue dev.nvs i := by
    rw [ContactDevice.storedReplyQueue, ContactDevice.storedReplyQueue,
      hkeys' _ (by simp [slotDataKeys])]
  have hcounters : (added.handshakeSetActive i).handshakes i =
      (ContactDevice.storedHandshake final.nvs i).getD (final.handshakes i) := by
    rw [handshakeSetActive_found added hi (hsame.activeHandshakeIdx ▸ hlt), hnvs, hsame.handshakes]
  have hratchet := ratchetSetActive_found added hi
  rw [hsame.slotRatchet] at hratchet
  simp only [slotView, freshView, SlotView.mk.injEq]
  rw [hpq, hpeer, loadedReplyQueue_eq, hqueue, hrq, newReplyQueue_fresh_iff, hcounters, hratchet]
  by_cases hnone : dev.nvs (ratKey i) = none
  · have htrace := hrun hnone
    have hreload : ratchetReload added.nvs i = none := by
      rw [ratchetReload, ratchetLoadState, hrat, hnone]
      simp
    have hfinal : final.slotRatchet i =
        if (actions.map ContactAction.slotEvent).any SlotEvent.isReboot then .zero P
        else dev.slotRatchet i :=
      (congrArg SlotTrace.ratchet htrace).trans (SlotTrace.run_ratchet P i _ _)
    have hforgotten : (ContactDevice.storedHandshake final.nvs i).getD (final.handshakes i) = .zero ↔
        CountersForgotten i (dev.handshakes i) (ContactDevice.storedHandshake dev.nvs i)
          dev.activeHandshakeIdx (actions.map ContactAction.slotEvent) := by
      have hcounted := SlotTrace.run_counters P (slotTrace dev i) htargets
      rw [← htrace] at hcounted
      exact hcounted
    rw [hreload, Option.getD_none, ite_self, hfinal, hforgotten]
    have hratchetZero : (if (actions.map ContactAction.slotEvent).any SlotEvent.isReboot = true
        then RatchetState.zero P else dev.slotRatchet i) = .zero P ↔
        ((actions.map ContactAction.slotEvent).any SlotEvent.isReboot = true ∨
          dev.slotRatchet i = .zero P) := by
      split_ifs with hreboot <;> simp [hreboot]
    rw [hratchetZero]
    tauto
  · -- A stored ratchet is found, and it is initialised.
    have hfound : (if (final.slotRatchet i).initialized = true then final.slotRatchet i
        else (ratchetReload added.nvs i).getD (final.slotRatchet i)) ≠ .zero P := by
      obtain ⟨blob, hblob⟩ := Option.ne_none_iff_exists'.mp hnone
      obtain ⟨classical, rfl, hclassical⟩ := hinit blob hblob
      rw [ratchetReload_of_blob hi (hrat.trans hblob) hclassical]
      intro hzero
      have hzeroInit := congrArg (fun st : RatchetState K => st.initialized) hzero
      split_ifs at hzeroInit with hslot
      · exact Bool.noConfusion (hslot.symm.trans hzeroInit)
      · exact Bool.noConfusion (hclassical.symm.trans hzeroInit)
    simp only [hfound, hnone, false_and]

/-! ### What a deletion leaves -/

/-- The events of a reuse between the deletion and the new contact. -/
def SlotReuse.events (r : SlotReuse K) : List SlotEvent := r.meanwhile.map ContactAction.slotEvent

/-- The contact is forgotten. A removal leaves the ratchet of a slot from 10 on in NVS, and
the handshake entry in RAM. An aborted invitation leaves all of RAM and, but for the reply
queue of a slot below 10 that is not about to be saved, all of NVS. -/
def SlotReuse.Forgotten (P : Primitives K) (r : SlotReuse K) (dev : ContactDevice K) : Prop :=
  match r.kind with
  | .removal =>
    (r.slot < 10 ∨ dev.nvs (ratKey r.slot) = none) ∧
      CountersForgotten r.slot (dev.handshakes r.slot) none dev.activeHandshakeIdx r.events
  | .abortCleanup =>
    dev.nvs (ratKey r.slot) = none ∧
      (r.events.any SlotEvent.isReboot = true ∨ dev.slotRatchet r.slot = .zero P) ∧
      pqNvsLoad dev.nvs r.slot .zero = .zero ∧
      ContactDevice.peerLoadState dev.nvs r.slot = none ∧
      (r.queue.valid = true ∨
        ¬ (dev.rqSavePending = some r.slot ∧ (dev.replyQueues r.slot).valid = true) ∧
          (r.slot < 10 ∨ ContactDevice.storedReplyQueue dev.nvs r.slot = none)) ∧
      CountersForgotten r.slot (dev.handshakes r.slot)
        (ContactDevice.storedHandshake dev.nvs r.slot) dev.activeHandshakeIdx r.events

/-- The decimal and the hexadecimal name of a slot agree below 10. -/
theorem fmt02x_eq_self {i : ℕ} (hi : i < maxContacts) : fmt02x i = fmt02u i ↔ i < 10 := by
  have hi' : i < 128 := hi
  rw [fmt02x_eq_fmt02u (by omega)]
  omega

/-- A removal wipes the ratchet in RAM. -/
theorem removeContact_slotRatchet (P : Primitives K) (dev : ContactDevice K) {i : ℕ}
    (hi : i < maxContacts) (hactive : (dev.contacts i).isActive = true) :
    (dev.removeContact P i true fun _ => true).1.slotRatchet i = .zero P := by
  have hwiped : (255 : ℕ) ≠ i := fun h => absurd (h ▸ hi) (by decide)
  have hwipe : ∀ d : ContactDevice K, (d.ratchetWipeSlot P i).slotRatchet i = .zero P := by
    intro d
    rw [ContactDevice.ratchetWipeSlot, if_neg (Nat.not_le_of_lt hi), ContactDevice.slotRatchet]
    dsimp only
    by_cases hidx : i = d.activeRatchetIdx
    · rw [if_pos hidx, if_neg hwiped, Function.update_self]
    · rw [if_neg hidx, if_neg (Ne.symm hidx), Function.update_self]
  rw [ContactDevice.removeContact, if_neg (not_not.mpr ⟨hi, hactive⟩)]
  exact hwipe { dev with
    contacts := Function.update dev.contacts i .zero
    nvs := dev.nvs.eraseAll (removedKeys i) }

/-- What a removal leaves under the keys of its slot. -/
theorem removeContact_slotKeys (P : Primitives K) (dev : ContactDevice K) {i : ℕ}
    (hi : i < maxContacts) (hactive : (dev.contacts i).isActive = true) :
    let nvs := (dev.removeContact P i true fun _ => true).1.nvs
    nvs (ratKey i) = (if i < 10 then none else dev.nvs (ratKey i)) ∧
      pqNvsLoad nvs i .zero = .zero ∧ ContactDevice.peerLoadState nvs i = none ∧
      ContactDevice.storedReplyQueue nvs i = none ∧
      ContactDevice.storedHandshake nvs i = none := by
  intro nvs
  have hkey : ∀ key, IsSlotKey i key →
      nvs key = if key ∈ removedKeys i then none else dev.nvs key := by
    intro key hkey
    change (dev.removeContact P i true fun _ => true).1.nvs key = _
    rw [hkey.removeContact]
    simp [hi, hactive]
  have herased : ∀ key, IsSlotKey i key → key ∈ removedKeys i → nvs key = none :=
    fun key hslot hmem => (hkey key hslot).trans (if_pos hmem)
  have hrat : ratKey i ∈ removedKeys i ↔ i < 10 := by
    rw [← fmt02x_eq_self hi, mem_removedKeys]
    constructor
    · rintro (h | h | h | h | ⟨f, -, h⟩)
      · exact ((String.append_right_inj _).mp h).symm
      · exact absurd h (ne_of_keyFamily (by simp))
      · exact absurd h (ne_of_keyFamily (by simp))
      · exact absurd h (ne_of_keyFamily (by simp))
      · exact absurd h (ratKey_ne_pqKey i i f)
    · intro h
      exact Or.inl (congrArg ("rat_" ++ ·) h.symm)
  refine ⟨?_, ?_, ?_, ?_, ?_⟩
  · rw [hkey _ (Or.inl (by simp [slotDataKeys]))]
    simp only [hrat]
  · have hact : nvs (pqKey i "_act") = none := herased _
      (Or.inl (mem_slotDataKeys.mpr (Or.inr (Or.inr (Or.inr ⟨"_act", by simp [pqSuffixes], rfl⟩)))))
      (mem_removedKeys.mpr (Or.inr (Or.inr (Or.inr (Or.inr
        ⟨"_act", by simp [removedPqSuffixes], rfl⟩)))))
    have hexists : smpStorageExists nvs (pqKey i "_act") = false := by
      rw [smpStorageExists, hact]
    simp only [pqNvsLoad, hexists, Bool.not_false, if_true, ite_self]
  · rw [ContactDevice.peerLoadState, herased (peerKey i) (Or.inl (by simp [slotDataKeys]))
      (mem_removedKeys.mpr (Or.inr (Or.inl rfl)))]
  · rw [ContactDevice.storedReplyQueue, herased (rqKey i) (Or.inl (by simp [slotDataKeys]))
      (mem_removedKeys.mpr (Or.inr (Or.inr (Or.inr (Or.inl rfl)))))]
  · rw [ContactDevice.storedHandshake, herased (handKey i) (Or.inr rfl)
      (mem_removedKeys.mpr (Or.inr (Or.inr (Or.inl rfl))))]

/-- What an aborted invitation leaves under the keys of its slot. -/
theorem abortPendingContact_slotKeys (dev : ContactDevice K) {i : ℕ} (hi : i < maxContacts) :
    let nvs := ((dev.abortPendingContact i).processDeferredWork (fun _ => true) true).nvs
    (∀ key, IsSlotKey i key → key ≠ rqKey i → nvs key = dev.nvs key) ∧
      (ContactDevice.storedReplyQueue nvs i = none ↔
        ¬ (dev.rqSavePending = some i ∧ (dev.replyQueues i).valid = true) ∧
          (i < 10 ∨ ContactDevice.storedReplyQueue dev.nvs i = none)) := by
  intro nvs
  have hkey : ∀ key, IsSlotKey i key → nvs key =
      if key = rqKey i ∧ dev.rqSavePending = some i ∧ (dev.replyQueues i).valid = true
        then some (.replyQueue (dev.replyQueues i))
      else if key ∈ abortedKeys i then none else dev.nvs key := by
    intro key hkey
    have hpending : (∃ slot < maxContacts,
        (dev.abortPendingContact i).pendingDeleteSlot = some slot ∧ key ∈ abortedKeys slot) ↔
          key ∈ abortedKeys i := by
      constructor
      · rintro ⟨slot, -, hslot, hmem⟩
        cases hslot
        exact hmem
      · intro hmem
        exact ⟨i, hi, rfl, hmem⟩
    change ((dev.abortPendingContact i).processDeferredWork (fun _ => true) true).nvs key = _
    rw [hkey.deferredWork hi]
    simp only [hpending, and_true]
    rfl
  have hmem : ∀ key, IsSlotKey i key → (key ∈ abortedKeys i ↔ key = rqKey i ∧ i < 10) := by
    intro key hkey
    rw [mem_abortedKeys_other hkey.saved (ratKey_ne_ratchet i), fmt02x_eq_self hi]
  refine ⟨fun key hslot hne => ?_, ?_⟩
  · rw [hkey key hslot, if_neg fun h => hne h.1, if_neg fun h => hne ((hmem key hslot).mp h).1]
  · have hrq : IsSlotKey i (rqKey i) := Or.inl (by simp [slotDataKeys])
    rw [ContactDevice.storedReplyQueue, hkey _ hrq]
    by_cases hsave : dev.rqSavePending = some i ∧ (dev.replyQueues i).valid = true
    · simp [hsave]
    · rw [if_neg fun h => hsave h.2]
      by_cases hlow : i < 10
      · rw [if_pos ((hmem _ hrq).mpr ⟨rfl, hlow⟩)]
        simp [hsave, hlow]
      · rw [if_neg fun h => hlow ((hmem _ hrq).mp h).2]
        simp only [hsave, hlow, not_false_eq_true, true_and, false_or]
        rfl

/-- The sessions in RAM survive an aborted invitation. -/
theorem abortPendingContact_same (dev : ContactDevice K) (i : ℕ) :
    SameSessions dev ((dev.abortPendingContact i).processDeferredWork (fun _ => true) true) := by
  have haborted : SameSessions dev (dev.abortPendingContact i) := ⟨rfl, rfl, rfl, rfl, rfl⟩
  exact haborted.trans (processDeferredWork_same _ _ _)

/-- In one history the new contact finds a fresh slot exactly when the old one is forgotten. -/
theorem slotReuse_fresh_iff (P : Primitives K) (r : SlotReuse K) {dev : ContactDevice K}
    (h : r.Applies P dev) :
    slotView (r.after P dev) r.slot = freshView P r.queue ↔ r.Forgotten P dev := by
  obtain ⟨slot, kind, meanwhile, keys, ids, queue⟩ := r
  obtain ⟨hi, hremovable, helse, hpicked, hinit, hactive⟩ := h
  dsimp only at hi hremovable helse hpicked hinit
  cases kind with
  | removal =>
    have hcontact := hremovable rfl
    obtain ⟨hrat, hpq, hpeer, hrq, hhand⟩ := removeContact_slotKeys P dev hi hcontact
    obtain ⟨-, hentries, hidx⟩ := removeContact_same P dev slot true fun _ => true
    have hratchet := removeContact_slotRatchet P dev hi hcontact
    have hinit' : ∀ blob, (dev.removeContact P slot true fun _ => true).1.nvs (ratKey slot) =
        some blob → ∃ classical : RatchetClassical K,
          blob = .ratchet classical ∧ classical.initialized = true := by
      intro blob hblob
      rw [hrat] at hblob
      split_ifs at hblob
      exact hinit blob hblob
    refine (slotView_fresh_iff P hi (hidx ▸ hactive) hinit' helse hpicked keys ids queue).trans ?_
    rw [hrat, hpq, hpeer, hrq, hhand, hratchet, hentries, hidx]
    have hnone : (if slot < 10 then none else dev.nvs (ratKey slot)) = none ↔
        slot < 10 ∨ dev.nvs (ratKey slot) = none := by
      split_ifs with hlow <;> simp [hlow]
    rw [hnone]
    simp [SlotReuse.Forgotten, SlotReuse.events]
  | abortCleanup =>
    obtain ⟨hkeys, hrq⟩ := abortPendingContact_slotKeys dev hi
    have hsame := abortPendingContact_same dev slot
    have hdata : ∀ key ∈ slotDataKeys slot, key ≠ rqKey slot →
        ((dev.abortPendingContact slot).processDeferredWork (fun _ => true) true).nvs key =
          dev.nvs key := fun key hkey => hkeys key (Or.inl hkey)
    have hrat := hdata (ratKey slot) (by simp [slotDataKeys]) (ne_of_keyFamily (by simp))
    have hpeer := hdata (peerKey slot) (by simp [slotDataKeys]) (ne_of_keyFamily (by simp))
    have hhand := hkeys (handKey slot) (Or.inr rfl) (ne_of_keyFamily (by simp))
    have hpq : pqNvsLoad ((dev.abortPendingContact slot).processDeferredWork
        (fun _ => true) true).nvs slot .zero = pqNvsLoad dev.nvs slot .zero :=
      pqNvsLoad_congr (fun field hfield => hdata _ (mem_slotDataKeys.mpr
        (Or.inr (Or.inr (Or.inr ⟨field, hfield, rfl⟩)))) (ne_of_keyFamily (by simp))) _
    have hpeer' : ContactDevice.peerLoadState ((dev.abortPendingContact slot).processDeferredWork
        (fun _ => true) true).nvs slot = ContactDevice.peerLoadState dev.nvs slot := by
      rw [ContactDevice.peerLoadState, ContactDevice.peerLoadState, hpeer]
    have hhand' : ContactDevice.storedHandshake ((dev.abortPendingContact slot).processDeferredWork
        (fun _ => true) true).nvs slot = ContactDevice.storedHandshake dev.nvs slot := by
      rw [ContactDevice.storedHandshake, ContactDevice.storedHandshake, hhand]
    have hactive' : ((dev.abortPendingContact slot).processDeferredWork
        (fun _ => true) true).activeHandshakeIdx < maxContacts :=
      hsame.activeHandshakeIdx.symm ▸ hactive
    refine (slotView_fresh_iff P hi hactive' (hrat ▸ hinit) helse hpicked keys ids queue).trans ?_
    rw [hrat, hpq, hpeer', hrq, hhand', hsame.slotRatchet, hsame.handshakes,
      hsame.activeHandshakeIdx]
    rfl

/-! ### The ratchet table -/

/-- The entries of the ratchet table a step accesses: by a selection, by the wipe of a removed
contact, and by `ratchet_multi_init`, which copies the working copy to slot 0. -/
def ContactAction.tableAccesses (dev : ContactDevice K) : ContactAction K → List ℕ
  | .select slot => dev.setActiveAccesses slot
  | .removeContact index _ _ => if index < maxContacts then [index] else []
  | .reboot _ => [0]
  | _ => []

/-- From the deletion on, the table is accessed inside its entries only, by the steps meanwhile
and by the first selection of the new contact. -/
def SlotReuse.InTable (P : Primitives K) (r : SlotReuse K) (dev : ContactDevice K) : Prop :=
  StepsMeet (ContactDevice.step P)
      (fun d action => ∀ entry ∈ action.tableAccesses d, entry < maxContacts)
      (dev.retireSlot P r.slot r.kind) r.meanwhile ∧
    ∀ entry ∈ (r.after P dev).setActiveAccesses r.slot, entry < maxContacts

/-- A selection starts from a slot of the table, not after a removal of the contact in use. -/
def ContactAction.SelectsFromSlot (dev : ContactDevice K) : ContactAction K → Prop
  | .select slot => slot < maxContacts → dev.activeRatchetIdx < maxContacts
  | _ => True

/-- From the deletion on, contacts are selected from a slot of the table, the new one too. -/
def SlotReuse.SelectsFromSlot (P : Primitives K) (r : SlotReuse K) (dev : ContactDevice K) :
    Prop :=
  StepsMeet (ContactDevice.step P) ContactAction.SelectsFromSlot
      (dev.retireSlot P r.slot r.kind) r.meanwhile ∧
    (r.before P dev).activeRatchetIdx < maxContacts

/-- Only the write-back of a selection can leave the table. -/
theorem setActiveAccesses_lt_iff (dev : ContactDevice K) (idx : ℕ) :
    (∀ entry ∈ dev.setActiveAccesses idx, entry < maxContacts) ↔
      (idx < maxContacts → dev.activeRatchetIdx < maxContacts) := by
  rw [ContactDevice.setActiveAccesses]
  by_cases hidx : maxContacts ≤ idx
  · rw [if_pos hidx]
    exact ⟨fun _ h => absurd h (Nat.not_lt_of_le hidx), fun _ _ h => nomatch h⟩
  · have hlt := Nat.lt_of_not_le hidx
    rw [if_neg hidx]
    simp [hlt]

/-- Steps that select from a slot of the table stay inside it. -/
theorem ContactAction.tableAccesses_lt_iff (dev : ContactDevice K) (action : ContactAction K) :
    (∀ entry ∈ action.tableAccesses dev, entry < maxContacts) ↔ action.SelectsFromSlot dev := by
  cases action with
  | select slot => exact setActiveAccesses_lt_iff dev slot
  | removeContact index confirmed lands =>
    refine iff_of_true ?_ trivial
    rw [ContactAction.tableAccesses]
    split_ifs with hindex
    · simpa using hindex
    · simp
  | reboot env => simp [ContactAction.tableAccesses, ContactAction.SelectsFromSlot, maxContacts]
  | _ => simp [ContactAction.tableAccesses, ContactAction.SelectsFromSlot]

/-- A reuse stays inside the table exactly when it selects from its slots. -/
theorem SlotReuse.inTable_iff (P : Primitives K) (r : SlotReuse K) {dev : ContactDevice K}
    (h : r.Applies P dev) : r.InTable P dev ↔ r.SelectsFromSlot P dev := by
  have hactive : (r.after P dev).activeRatchetIdx = (r.before P dev).activeRatchetIdx :=
    (cmdAddContact_picked h.picked r.keys r.ids r.queue).1.activeRatchetIdx
  rw [SlotReuse.InTable, SlotReuse.SelectsFromSlot, setActiveAccesses_lt_iff, hactive,
    stepsMeet_congr ContactAction.tableAccesses_lt_iff]
  simp only [h.slot_lt, forall_const]

/-- Two histories of a reuse, whatever the previous contacts of the slot were: the new contact
finds the same in both, and nothing of an old contact, with no access outside the ratchet
table, exactly when the old contact is forgotten in both and no contact is selected after a
removal of the one in use. -/
theorem slotReuse_clean_iff (P : Primitives K) (r : SlotReuse K) {dev dev' : ContactDevice K}
    (h : r.Applies P dev) (h' : r.Applies P dev') :
    (slotView (r.after P dev) r.slot = slotView (r.after P dev') r.slot ∧
        slotView (r.after P dev) r.slot = freshView P r.queue ∧
        r.InTable P dev ∧ r.InTable P dev') ↔
      (r.Forgotten P dev ∧ r.SelectsFromSlot P dev) ∧
        r.Forgotten P dev' ∧ r.SelectsFromSlot P dev' := by
  rw [← slotReuse_fresh_iff P r h, ← slotReuse_fresh_iff P r h', r.inTable_iff P h,
    r.inTable_iff P h']
  constructor
  · rintro ⟨hsame, hfresh, hin, hin'⟩
    exact ⟨⟨hfresh, hin⟩, hsame.symm.trans hfresh, hin'⟩
  · rintro ⟨⟨hfresh, hin⟩, hfresh', hin'⟩
    exact ⟨hfresh.trans hfresh'.symm, hfresh, hin, hin'⟩

/-- A device with one contact, in slot 0, with a handshake entry in RAM and what is stored in
NVS. The ratchet of another slot is in use. -/
def oneContact (entry : HandshakeEntry) (nvs : Nvs SymKey) : ContactDevice SymKey :=
  { ContactDevice.blank symbolic with
    contacts := Function.update (fun _ => .zero) 0 { Contact.zero with active := 1 }
    numContacts := 1
    activeRatchetIdx := 1
    handshakes := Function.update (fun _ => .zero) 0 entry
    nvs := nvs }

/-- Slot 0 is freed and given to a new contact at once. -/
def reuseAtOnce (kind : SlotDeletion) : SlotReuse SymKey where
  slot := 0
  kind := kind
  meanwhile := []
  keys := zeroContactKeys
  ids := zeroQueueIds
  queue := { ReplyQueue.zero with valid := true }

/-- The reuse takes place for any initialised ratchet, or none, in slot 0. -/
theorem reuseAtOnce_applies (kind : SlotDeletion) (entry : HandshakeEntry) (nvs : Nvs SymKey)
    (hinit : ∀ blob, nvs (ratKey 0) = some blob → ∃ classical : RatchetClassical SymKey,
      blob = .ratchet classical ∧ classical.initialized = true) :
    (reuseAtOnce kind).Applies symbolic (oneContact entry nvs) where
  slot_lt := Nat.succ_pos 127
  removable := fun _ => rfl
  elsewhere := trivial
  picked := by
    cases kind with
    | removal => rfl
    | abortCleanup => rfl
  initialized := hinit
  active_lt := Nat.succ_pos 127

/-- An initialised ratchet stored for slot 0. -/
def storedRatchet : Nvs SymKey :=
  Store.put (fun _ => none) (ratKey 0)
    (.ratchet { (RatchetState.zero symbolic).toRatchetClassical with initialized := true })

/-- A new contact in a slot whose contact had exchanged messages finds the old counters after
a removal, and the old ratchet after an aborted invitation. -/
theorem slotReuse_not_clean :
    ¬ (slotView ((reuseAtOnce .removal).after symbolic
            (oneContact ⟨5, zeroBytes 32⟩ fun _ => none)) 0 =
          slotView ((reuseAtOnce .removal).after symbolic
            (oneContact .zero fun _ => none)) 0 ∧
        slotView ((reuseAtOnce .removal).after symbolic
            (oneContact ⟨5, zeroBytes 32⟩ fun _ => none)) 0 =
          freshView symbolic (reuseAtOnce .removal).queue) ∧
      slotView ((reuseAtOnce .abortCleanup).after symbolic (oneContact .zero storedRatchet)) 0 ≠
        freshView symbolic (reuseAtOnce .abortCleanup).queue := by
  constructor
  · rintro ⟨-, hfresh⟩
    have happlies := reuseAtOnce_applies .removal ⟨5, zeroBytes 32⟩ (fun _ => none)
      fun _ h => by cases h
    have hforgotten := (slotReuse_fresh_iff symbolic _ happlies).mp hfresh
    have hcounters : (⟨5, zeroBytes 32⟩ : HandshakeEntry) = .zero := hforgotten.2
    exact absurd hcounters (by decide)
  · intro hfresh
    have hstored : storedRatchet (ratKey 0) = some (.ratchet
        { (RatchetState.zero symbolic).toRatchetClassical with initialized := true }) :=
      Store.put_self ..
    have happlies := reuseAtOnce_applies .abortCleanup .zero storedRatchet fun blob hblob =>
      ⟨_, (Option.some.inj (hstored.symm.trans hblob)).symm, rfl⟩
    have hforgotten := (slotReuse_fresh_iff symbolic _ happlies).mp hfresh
    have hnone : storedRatchet (ratKey 0) = none := hforgotten.1
    exact Option.some_ne_none _ (hstored.symm.trans hnone)

/-- After a contact that left only a peer queue, and one that left nothing, the new contact of
slot 0 finds the same fresh slot, with no access outside the ratchet table. -/
theorem slotReuse_clean_peer :
    slotView ((reuseAtOnce .removal).after symbolic (oneContact .zero fun _ => none)) 0 =
        slotView ((reuseAtOnce .removal).after symbolic
          (oneContact .zero (Store.put (fun _ => none) (peerKey 0) (.bytes [1])))) 0 ∧
      slotView ((reuseAtOnce .removal).after symbolic (oneContact .zero fun _ => none)) 0 =
        freshView symbolic (reuseAtOnce .removal).queue ∧
      (reuseAtOnce .removal).InTable symbolic (oneContact .zero fun _ => none) ∧
      (reuseAtOnce .removal).InTable symbolic
        (oneContact .zero (Store.put (fun _ => none) (peerKey 0) (.bytes [1]))) := by
  have hpeer : Store.put (fun _ => none) (peerKey 0) (Blob.bytes [1] : Blob SymKey) (ratKey 0) =
      none := Store.put_of_ne _ _ (ne_of_keyFamily (by simp))
  have hone : (1 : ℕ) < maxContacts := by decide
  exact (slotReuse_clean_iff symbolic (reuseAtOnce .removal)
    (reuseAtOnce_applies .removal .zero (fun _ => none) fun _ h => by cases h)
    (reuseAtOnce_applies .removal .zero _ fun _ h => by rw [hpeer] at h; cases h)).mpr
    ⟨⟨⟨Or.inl (by decide), rfl⟩, trivial, hone⟩, ⟨⟨Or.inl (by decide), rfl⟩, trivial, hone⟩⟩

end SimpleGo
