import SimpleGo.Rotation.Rules

/-!
# What the live switch changes

`rotation_complete` in one piece: the credentials of the contacts it moves, the device's own
queue, the writes to NVS, and the rotation, which goes on until every contact is DONE.
-/

namespace SimpleGo

open Lib

namespace RotationDevice

variable {X : Sodium} {dev : RotationDevice}

/-- The device after the credentials of a live switch are saved. -/
def switched (dev : RotationDevice) : RotationDevice :=
  dev.migrateCredentials.switchE2eKeys.switchServer.persistCredentials

/-- A contact that is moved. -/
theorem migrateCredentials_contacts {i : ℕ} (h : dev.migrates i = true) :
    dev.migrateCredentials.contacts i = (dev.contacts i).migrate (dev.record i) := if_pos h

/-- The reply queue of a contact that is moved. -/
theorem migrateCredentials_replyQueues {i : ℕ} (h : dev.migrates i = true) :
    dev.migrateCredentials.replyQueues i =
      (dev.replyQueues i).migrate (dev.contacts i) (dev.record i) := if_pos h

/-- The reply queue of a contact that is not moved. -/
theorem migrateCredentials_replyQueues_of_not {i : ℕ} (h : dev.migrates i = false) :
    dev.migrateCredentials.replyQueues i = dev.replyQueues i := if_neg (by simp [h])

/-- A moved contact stays in use. -/
@[simp] theorem migrateCredentials_isActive (i : ℕ) :
    (dev.migrateCredentials.contacts i).isActive = (dev.contacts i).isActive := by
  rw [migrateCredentials]
  dsimp only
  split <;> rfl

/-- The slots in use stay the same. -/
@[simp] theorem migrateCredentials_activeSlots :
    dev.migrateCredentials.activeSlots = dev.activeSlots := by
  rw [activeSlots, activeSlots]
  exact List.filter_congr fun i _ => migrateCredentials_isActive i

/-- The moved contacts stay the ones to move. -/
@[simp] theorem migrateCredentials_migratedSlots :
    dev.migrateCredentials.migratedSlots = dev.migratedSlots := by
  rw [migratedSlots, migratedSlots]
  refine List.filter_congr fun i _ => ?_
  rw [migrates, migrates, migrateCredentials_isActive]
  rfl

/-- A slot that is moved. -/
theorem mem_migratedSlots {i : ℕ} : i ∈ dev.migratedSlots ↔ dev.migrates i = true := by
  rw [migratedSlots, List.mem_filter, List.mem_range, migrates]
  simp only [Bool.and_eq_true, decide_eq_true_eq]
  exact ⟨fun h => h.2, fun h => ⟨h.1.1, h⟩⟩

/-- A contact that is moved is in use and in QUSE_SENT or DONE. -/
theorem migrates_iff {i : ℕ} : dev.migrates i = true ↔
    i < maxContacts ∧ (dev.contacts i).isActive = true ∧
      (dev.rotationGetContactState i = .done ∨ dev.rotationGetContactState i = .quseSent) := by
  rw [migrates]
  simp only [Bool.and_eq_true, decide_eq_true_eq, Bool.or_eq_true, beq_iff_eq, and_assoc]

/-- Phase 1b changes the E2E keys, and their entry in NVS. -/
theorem switchE2eKeys_eq (dev : RotationDevice) :
    ∃ writes : List (FlashKey × Option FlashBlob), (∀ w ∈ writes, w.1 = .cqE2ePeer) ∧
      dev.switchE2eKeys = { dev with
        ourQueue := { dev.ourQueue with
          e2ePublic := dev.switchE2eKeys.ourQueue.e2ePublic
          e2ePrivate := dev.switchE2eKeys.ourQueue.e2ePrivate }
        cqPeerE2e := dev.switchE2eKeys.cqPeerE2e
        flash := dev.flash ++ writes } := by
  rw [switchE2eKeys]
  split
  · exact ⟨[], by simp, by simp⟩
  · dsimp only
    split
    · exact ⟨[_], fun w hw => by rw [List.mem_singleton.1 hw], rfl⟩
    · exact ⟨[], by simp, by simp⟩

/-- What a live switch changes before the rotation is finished. -/
theorem switched_eq (dev : RotationDevice) :
    ∃ writes : List (FlashKey × Option FlashBlob), (∀ w ∈ writes, w.1 = .cqE2ePeer) ∧
      dev.switched = { dev with
        contacts := dev.migrateCredentials.contacts
        replyQueues := dev.migrateCredentials.replyQueues
        ourQueue := { dev.ourQueue with
          e2ePublic := dev.switched.ourQueue.e2ePublic
          e2ePrivate := dev.switched.ourQueue.e2ePrivate
          serverHost := strncpy 63 (cString dev.ctx.targetHost)
          serverPort := dev.ctx.targetPort.toNat
          serverKeyHash := dev.ctx.targetKeyHash }
        cqPeerE2e := dev.switched.cqPeerE2e
        completeLogged := false
        history := dev.migratedSlots.map .migrated ++ dev.history
        flash := dev.flash ++ writes ++ (dev.migrateCredentials.contactWrites ++
          dev.migrateCredentials.replyQueueWrites ++
            [(.queueOur, some (.ourQueue dev.switched.ourQueue))]) } := by
  obtain ⟨writes, hwrites, h⟩ := dev.migrateCredentials.switchE2eKeys_eq
  refine ⟨writes, hwrites, ?_⟩
  rw [switched, h]
  rfl

/-- The switch keeps the rotation's own state. -/
@[simp] theorem switched_ctx : dev.switched.ctx = dev.ctx := by
  obtain ⟨_, _, h⟩ := dev.switched_eq
  have hfield := congrArg ctx h
  exact hfield

/-- It keeps the records of the contacts. -/
@[simp] theorem switched_records : dev.switched.records = dev.records := by
  obtain ⟨_, _, h⟩ := dev.switched_eq
  have hfield := congrArg records h
  exact hfield

/-- The contacts are those with migrated credentials. -/
theorem switched_contacts : dev.switched.contacts = dev.migrateCredentials.contacts := by
  obtain ⟨_, _, h⟩ := dev.switched_eq
  have hfield := congrArg contacts h
  exact hfield

/-- So are the reply queues. -/
theorem switched_replyQueues : dev.switched.replyQueues = dev.migrateCredentials.replyQueues := by
  obtain ⟨_, _, h⟩ := dev.switched_eq
  have hfield := congrArg replyQueues h
  exact hfield

/-- Every migrated slot is in the history. -/
theorem switched_history : dev.switched.history = dev.migratedSlots.map .migrated ++ dev.history := by
  obtain ⟨_, _, h⟩ := dev.switched_eq
  have hfield := congrArg history h
  exact hfield

/-- Our queue keeps its credentials and moves to the target server. -/
theorem switched_ourQueue : ∃ e2ePublic e2ePrivate, dev.switched.ourQueue =
    { dev.ourQueue with
      e2ePublic := e2ePublic
      e2ePrivate := e2ePrivate
      serverHost := strncpy 63 (cString dev.ctx.targetHost)
      serverPort := dev.ctx.targetPort.toNat
      serverKeyHash := dev.ctx.targetKeyHash } := by
  obtain ⟨_, _, h⟩ := dev.switched_eq
  have hfield := congrArg ourQueue h
  exact ⟨_, _, hfield⟩

/-- Phase 1b takes the key of the first contact that is moved. -/
theorem switchE2eKeys_e2ePrivate {i : ℕ} (h : dev.migratedSlots.head? = some i) :
    dev.switchE2eKeys.ourQueue.e2ePrivate = (dev.record i).main.e2ePrivate := by
  rw [switchE2eKeys, h]
  dsimp only
  split <;> simp only [write]

/-- Our queue takes the E2E key of the first contact that is moved. -/
theorem switched_e2ePrivate {i : ℕ} (h : dev.migratedSlots.head? = some i) :
    dev.switched.ourQueue.e2ePrivate = (dev.record i).main.e2ePrivate := by
  have hhead : dev.migrateCredentials.migratedSlots.head? = some i := by
    rw [migrateCredentials_migratedSlots, h]
  have hrecord : dev.migrateCredentials.record i = dev.record i := by
    simp only [record, migrateCredentials]
  have hkey : dev.switched.ourQueue.e2ePrivate =
      dev.migrateCredentials.switchE2eKeys.ourQueue.e2ePrivate := by
    simp only [switched, persistCredentials, switchServer]
  rw [hkey, switchE2eKeys_e2ePrivate hhead, hrecord]

/-- The active server is kept beside the other fields. -/
theorem smpServersSetActive_eq (dev : RotationDevice) (idx : UInt8) :
    dev.smpServersSetActive idx = { dev with
    activeServer := (dev.smpServersSetActive idx).activeServer
    flash := (dev.smpServersSetActive idx).flash } := by
  rw [smpServersSetActive]
  split <;> rfl

@[simp] theorem smpServersSetActive_ctx (idx : UInt8) :
    (dev.smpServersSetActive idx).ctx = dev.ctx := by
  have hfield := congrArg ctx (dev.smpServersSetActive_eq idx)
  exact hfield

@[simp] theorem smpServersSetActive_records (idx : UInt8) :
    (dev.smpServersSetActive idx).records = dev.records := by
  have hfield := congrArg records (dev.smpServersSetActive_eq idx)
  exact hfield

@[simp] theorem smpServersSetActive_contacts (idx : UInt8) :
    (dev.smpServersSetActive idx).contacts = dev.contacts := by
  have hfield := congrArg contacts (dev.smpServersSetActive_eq idx)
  exact hfield

@[simp] theorem smpServersSetActive_replyQueues (idx : UInt8) :
    (dev.smpServersSetActive idx).replyQueues = dev.replyQueues := by
  have hfield := congrArg replyQueues (dev.smpServersSetActive_eq idx)
  exact hfield

@[simp] theorem smpServersSetActive_ourQueue (idx : UInt8) :
    (dev.smpServersSetActive idx).ourQueue = dev.ourQueue := by
  have hfield := congrArg ourQueue (dev.smpServersSetActive_eq idx)
  exact hfield

@[simp] theorem smpServersSetActive_history (idx : UInt8) :
    (dev.smpServersSetActive idx).history = dev.history := by
  have hfield := congrArg history (dev.smpServersSetActive_eq idx)
  exact hfield

/-- The last step: the rotation is cleared, or its context is saved. -/
theorem rotationComplete_cases (dev : RotationDevice) :
    dev.rotationComplete =
        (dev.switched.smpServersSetActive dev.ctx.targetServerIdx).rotationAbort ∨
      dev.rotationComplete =
        (dev.switched.smpServersSetActive dev.ctx.targetServerIdx).saveContext := by
  have h : dev.rotationComplete =
      (dev.switched.smpServersSetActive dev.switched.ctx.targetServerIdx).finishSwitch := rfl
  rw [h, switched_ctx, finishSwitch]
  split
  · exact .inl rfl
  · exact .inr rfl

/-- The rotation goes on with the same context and records, or it is over. -/
theorem rotationComplete_rotation : dev.rotationComplete.ctx.active = false ∨
    (dev.rotationComplete.ctx = dev.ctx ∧ dev.rotationComplete.records = dev.records) := by
  rcases dev.rotationComplete_cases with h | h
  · rw [h]
    exact .inl rfl
  · rw [h]
    refine .inr ⟨?_, ?_⟩
    · change (dev.switched.smpServersSetActive _).ctx = _
      rw [smpServersSetActive_ctx, switched_ctx]
    · change (dev.switched.smpServersSetActive _).records = _
      rw [smpServersSetActive_records, switched_records]

/-- What the last step leaves alone. -/
theorem rotationComplete_field {α : Type} (field : RotationDevice → α)
    (habort : ∀ d : RotationDevice, field d.rotationAbort = field d)
    (hsave : ∀ d : RotationDevice, field d.saveContext = field d)
    (hset : ∀ (d : RotationDevice) idx, field (d.smpServersSetActive idx) = field d) :
    field dev.rotationComplete = field dev.switched := by
  rcases dev.rotationComplete_cases with h | h
  · rw [h, habort, hset]
  · rw [h, hsave, hset]

/-- Completion changes no contact beyond its credentials. -/
theorem rotationComplete_contacts :
    dev.rotationComplete.contacts = dev.migrateCredentials.contacts :=
  (rotationComplete_field contacts (fun _ => rfl) (fun _ => rfl) fun _ idx =>
    smpServersSetActive_contacts idx).trans switched_contacts

/-- Nor a reply queue. -/
theorem rotationComplete_replyQueues :
    dev.rotationComplete.replyQueues = dev.migrateCredentials.replyQueues :=
  (rotationComplete_field replyQueues (fun _ => rfl) (fun _ => rfl) fun _ idx =>
    smpServersSetActive_replyQueues idx).trans switched_replyQueues

/-- Our queue is the one after the switch. -/
theorem rotationComplete_ourQueue : dev.rotationComplete.ourQueue = dev.switched.ourQueue :=
  rotationComplete_field ourQueue (fun _ => rfl) (fun _ => rfl) fun _ idx =>
    smpServersSetActive_ourQueue idx

/-- The history is the one after the switch. -/
theorem rotationComplete_history :
    dev.rotationComplete.history = dev.migratedSlots.map .migrated ++ dev.history :=
  (rotationComplete_field history (fun _ => rfl) (fun _ => rfl) fun _ idx =>
    smpServersSetActive_history idx).trans switched_history

/-- A host that was written as a C string is copied unchanged. -/
theorem cString_strncpy_host (host : Bytes 64) (h : (cString host).length ≤ 63) :
    cString (strncpy 63 (cString host)) = cString host := by
  rw [cString_strncpy 63 _ (zero_notMem_cString host), List.take_of_length_le h]

end RotationDevice

end SimpleGo
