import SimpleGo.Rotation.LiveSwitch

/-!
# What a rotation keeps in NVS

Between two operations NVS holds everything a start-up reads: the context and the records of
the rotation, the contacts, their reply queues and the device's own queue. So a restart that
does not fall into an operation changes nothing that matters. What a cut QKEY left in a record
is the one thing that is not saved.
-/

namespace SimpleGo

open Lib

/-- An entry of the rotation itself. -/
def FlashKey.ofRotation : FlashKey → Bool
  | .rotCtx | .rotC _ => true
  | _ => false

/-- An entry with credentials. -/
def FlashKey.ofCredentials : FlashKey → Bool
  | .cnt _ | .rq _ | .queueOur => true
  | _ => false

namespace RotationDevice

variable {X : Sodium} {dev dev' : RotationDevice}

/-! ### The invariants -/

/-- The rotation is stored. -/
structure RotationSaved (dev : RotationDevice) : Prop where
  context : loadedContext dev.nvs = if dev.ctx.active then some dev.ctx else none
  allocated : dev.ctx.active = true → dev.records.isSome = true
  records : dev.ctx.active = true → ∀ i < maxContacts,
    SameKeys (loadedRecord dev.nvs i) (dev.record i)
  noRecords : dev.ctx.active = false → ∀ i < maxContacts, dev.nvs (.rotC i) = none

/-- The credentials are stored. -/
structure CredentialsSaved (dev : RotationDevice) : Prop where
  contacts : ∀ i < maxContacts, dev.nvs (.cnt i) =
    if (dev.contacts i).isActive then some (.contact (dev.contacts i)) else none
  replyQueues : ∀ i < maxContacts, loadedReplyQueue dev.nvs i =
    if (dev.replyQueues i).valid then dev.replyQueues i else .zero
  freeQueues : ∀ i < maxContacts, (dev.contacts i).isActive = false →
    (dev.replyQueues i).valid = false
  ourQueue : dev.nvs .queueOur = some (.ourQueue dev.ourQueue)
  ourValid : dev.ourQueue.valid = true

/-- Everything a start-up reads is stored. -/
structure Saved (dev : RotationDevice) : Prop where
  rotation : RotationSaved dev
  credentials : CredentialsSaved dev

/-- The rotation's part depends on the context, the records and their entries. -/
theorem RotationSaved.frame (h : RotationSaved dev) (hctx : dev'.ctx = dev.ctx)
    (hrecords : dev'.records = dev.records)
    (hnvs : ∀ key : FlashKey, key.ofRotation = true → dev'.nvs key = dev.nvs key) :
    RotationSaved dev' := by
  have hrotC : ∀ i, dev'.nvs (.rotC i) = dev.nvs (.rotC i) := fun i => hnvs _ rfl
  have hrecord : ∀ i, dev'.record i = dev.record i := fun i => by rw [record, record, hrecords]
  refine ⟨?_, ?_, ?_, ?_⟩
  · rw [loadedContext, hnvs .rotCtx rfl, hctx]
    exact h.context
  · rw [hctx, hrecords]
    exact h.allocated
  · intro hactive i hi
    rw [loadedRecord, hrotC, hrecord]
    exact h.records (hctx ▸ hactive) i hi
  · intro hactive i hi
    rw [hrotC]
    exact h.noRecords (hctx ▸ hactive) i hi

/-- The credentials' part depends on the credentials and their entries. -/
theorem CredentialsSaved.frame (h : CredentialsSaved dev) (hcontacts : dev'.contacts = dev.contacts)
    (hreplyQueues : dev'.replyQueues = dev.replyQueues) (hourQueue : dev'.ourQueue = dev.ourQueue)
    (hnvs : ∀ key : FlashKey, key.ofCredentials = true → dev'.nvs key = dev.nvs key) :
    CredentialsSaved dev' := by
  refine ⟨?_, ?_, ?_, ?_, ?_⟩
  · intro i hi
    rw [hnvs _ rfl, hcontacts]
    exact h.contacts i hi
  · intro i hi
    rw [loadedReplyQueue, hnvs _ rfl, hreplyQueues]
    exact h.replyQueues i hi
  · rw [hcontacts, hreplyQueues]
    exact h.freeQueues
  · rw [hnvs _ rfl, hourQueue]
    exact h.ourQueue
  · rw [hourQueue]
    exact h.ourValid

/-! ### Single writes -/

/-- NVS after more writes. -/
theorem nvs_append {writes : List (FlashKey × Option FlashBlob)}
    (h : dev'.flash = dev.flash ++ writes) : dev'.nvs = dev.nvs.applyAll writes := by
  rw [nvs, nvs, h, Store.applyAll_append]

/-- NVS after one write. -/
@[simp] theorem nvs_write (key : FlashKey) (blob : Option FlashBlob) :
    (dev.write key blob).nvs = Function.update dev.nvs key blob :=
  (nvs_append rfl : (dev.write key blob).nvs = dev.nvs.applyAll [(key, blob)])

/-- NVS after a record is updated. -/
theorem nvs_updateRecord (h : dev.records.isSome = true) {idx : ℕ} (hidx : idx < maxContacts)
    (rd : RotationContactData) : (dev.updateRecord idx rd).nvs =
      Function.update dev.nvs (.rotC idx) (some (.record rd)) := by
  obtain ⟨rs, hrs⟩ := Option.isSome_iff_exists.1 h
  have hset : (dev.setRecord idx rd).records = some (Function.update rs idx rd) := by
    rw [setRecord, hrs]
    rfl
  rw [updateRecord, saveContactData, hset]
  dsimp only
  rw [if_pos hidx, nvs_write, Function.update_self]
  rfl

/-- A stored record is the one loaded. -/
theorem loadedRecord_of_some {nvs : Store FlashKey FlashBlob} {i : ℕ} (hi : i < maxContacts)
    {rd : RotationContactData} (h : nvs (.rotC i) = some (.record rd)) : loadedRecord nvs i = rd := by
  rw [loadedRecord, h]
  exact if_pos hi

/-- An updated record is stored. -/
theorem RotationSaved.updateRecord (h : RotationSaved dev) (hactive : dev.ctx.active = true)
    {idx : ℕ} (hidx : idx < maxContacts) (rd : RotationContactData) :
    RotationSaved (dev.updateRecord idx rd) := by
  have hsome := h.allocated hactive
  have hnvs := nvs_updateRecord hsome hidx rd
  refine ⟨?_, ?_, ?_, ?_⟩
  · rw [loadedContext, hnvs, Function.update_of_ne (by simp), updateRecord_ctx]
    exact h.context
  · rw [updateRecord_records_isSome, updateRecord_ctx]
    exact h.allocated
  · intro _ i hi
    by_cases hsame : i = idx
    · subst hsame
      rw [updateRecord_record_self hsome,
        loadedRecord_of_some hi (by rw [hnvs, Function.update_self])]
    · rw [updateRecord_record_of_ne hsame, loadedRecord, hnvs,
        Function.update_of_ne (by simpa using hsame)]
      exact h.records hactive i hi
  · intro hno
    rw [updateRecord_ctx, hactive] at hno
    cases hno

/-- A record update leaves the credentials alone. -/
theorem CredentialsSaved.updateRecord (h : CredentialsSaved dev) (hsome : dev.records.isSome = true)
    {idx : ℕ} (hidx : idx < maxContacts) (rd : RotationContactData) :
    CredentialsSaved (dev.updateRecord idx rd) :=
  h.frame (updateRecord_contacts idx rd) (updateRecord_replyQueues idx rd)
    (updateRecord_ourQueue idx rd) fun key hkey => by
      rw [nvs_updateRecord hsome hidx rd, Function.update_of_ne]
      rintro rfl
      cases hkey

/-- Everything is stored after a record update. -/
theorem Saved.updateRecord (h : Saved dev) (hactive : dev.ctx.active = true) {idx : ℕ}
    (hidx : idx < maxContacts) (rd : RotationContactData) : Saved (dev.updateRecord idx rd) :=
  ⟨h.rotation.updateRecord hactive hidx rd,
    h.credentials.updateRecord (h.rotation.allocated hactive) hidx rd⟩

/-- A record whose peer's part alone changes need not be saved. -/
theorem Saved.setRecord (h : Saved dev) {idx : ℕ} {rd : RotationContactData}
    (hsame : SameKeys rd (dev.record idx)) : Saved (dev.setRecord idx rd) := by
  refine ⟨⟨h.rotation.context, ?_, ?_, h.rotation.noRecords⟩,
    h.credentials.frame rfl rfl rfl fun _ _ => rfl⟩
  · intro hactive
    rw [RotationDevice.setRecord, Option.isSome_map]
    exact h.rotation.allocated hactive
  · intro hactive i hi
    obtain ⟨rs, hrs⟩ := Option.isSome_iff_exists.1 (h.rotation.allocated hactive)
    have hrecord : (dev.setRecord idx rd).record i = Function.update rs idx rd i := by
      rw [record, RotationDevice.setRecord, hrs]
      rfl
    have hbefore := h.rotation.records hactive i hi
    rw [record_of_some hrs] at hbefore hsame
    rw [hrecord]
    by_cases heq : i = idx
    · subst heq
      rw [Function.update_self]
      exact hbefore.trans ⟨hsame.state.symm, hsame.main.symm, hsame.rq.symm, hsame.rqCreated.symm⟩
    · rw [Function.update_of_ne heq]
      exact hbefore

/-- An event is not stored. -/
theorem Saved.note (h : Saved dev) (event : RotationEvent) : Saved (dev.note event) :=
  ⟨h.rotation.frame rfl rfl fun _ _ => rfl, h.credentials.frame rfl rfl rfl fun _ _ => rfl⟩

/-- A changed context of the same rotation is saved. -/
theorem Saved.saveContext (h : Saved dev) {ctx : RotationContext}
    (hactive : ctx.active = dev.ctx.active) (hrotation : dev.ctx.active = true) :
    Saved { dev with ctx := ctx }.saveContext := by
  have hnvs : ({ dev with ctx := ctx }.saveContext).nvs =
      Function.update dev.nvs .rotCtx (some (.context ctx)) := nvs_write ..
  refine ⟨⟨?_, ?_, ?_, ?_⟩, h.credentials.frame rfl rfl rfl fun key hkey => ?_⟩
  · rw [loadedContext, hnvs, Function.update_self]
    rfl
  · exact fun _ => h.rotation.allocated hrotation
  · intro _ i hi
    rw [loadedRecord, hnvs, Function.update_of_ne (by simp)]
    exact h.rotation.records hrotation i hi
  · intro hno
    exact absurd ((hactive.trans hrotation).symm.trans hno) (by simp)
  · rw [hnvs, Function.update_of_ne]
    rintro rfl
    cases hkey

/-! ### Clearing and starting -/

/-- NVS after the entries of the rotation are deleted. -/
theorem nvs_cleared (h : dev'.flash = dev.flash ++ clearedKeys.map fun key => (key, none))
    (key : FlashKey) : dev'.nvs key = if key ∈ clearedKeys then none else dev.nvs key := by
  rw [nvs_append h]
  by_cases hkey : key ∈ clearedKeys
  · rw [if_pos hkey]
    exact Store.applyAll_map _ _ _ _ (fun _ _ _ _ h => h) hkey
  · rw [if_neg hkey]
    refine Store.applyAll_of_forall_ne _ _ _ fun w hw hsame => hkey ?_
    obtain ⟨cleared, hmem, rfl⟩ := List.mem_map.1 hw
    exact hsame ▸ hmem

/-- The context and every record are deleted, and nothing else. -/
theorem mem_clearedKeys {key : FlashKey} :
    key ∈ clearedKeys ↔ key = .rotCtx ∨ ∃ i < maxContacts, key = .rotC i := by
  simp [clearedKeys, eq_comm]

/-- A cleared rotation is stored as none. -/
theorem Saved.cleared (h : Saved dev)
    (hflash : dev'.flash = dev.flash ++ clearedKeys.map fun key => (key, none))
    (hctx : dev'.ctx = .zero) (hcontacts : dev'.contacts = dev.contacts)
    (hreplyQueues : dev'.replyQueues = dev.replyQueues) (hourQueue : dev'.ourQueue = dev.ourQueue) :
    Saved dev' := by
  have hno : dev'.ctx.active = false := by rw [hctx]; rfl
  refine ⟨⟨?_, fun ha => absurd (hno.symm.trans ha) (by simp),
    fun ha => absurd (hno.symm.trans ha) (by simp), fun _ i hi => ?_⟩,
    h.credentials.frame hcontacts hreplyQueues hourQueue fun key hkey => ?_⟩
  · rw [loadedContext, nvs_cleared hflash, if_pos (mem_clearedKeys.2 (.inl rfl)), hno]
    rfl
  · rw [nvs_cleared hflash, if_pos (mem_clearedKeys.2 (.inr ⟨i, hi, rfl⟩))]
  · rw [nvs_cleared hflash, if_neg]
    intro hmem
    rcases mem_clearedKeys.1 hmem with rfl | ⟨i, -, rfl⟩ <;> cases hkey

/-- An entry that start-ups read elsewhere. -/
theorem Saved.write (h : Saved dev) {key : FlashKey} (hrotation : key.ofRotation = false)
    (hcredentials : key.ofCredentials = false) (blob : Option FlashBlob)
    (hctx : dev'.ctx = dev.ctx) (hrecords : dev'.records = dev.records)
    (hcontacts : dev'.contacts = dev.contacts) (hreplyQueues : dev'.replyQueues = dev.replyQueues)
    (hourQueue : dev'.ourQueue = dev.ourQueue) (hflash : dev'.flash = dev.flash) :
    Saved (dev'.write key blob) := by
  have hnvs : (dev'.write key blob).nvs = Function.update dev.nvs key blob := by
    rw [nvs_write, nvs, hflash]
    rfl
  refine ⟨h.rotation.frame hctx hrecords fun other hother => ?_,
    h.credentials.frame hcontacts hreplyQueues hourQueue fun other hother => ?_⟩
  · rw [hnvs, Function.update_of_ne]
    rintro rfl
    exact absurd (hrotation.symm.trans hother) (by simp)
  · rw [hnvs, Function.update_of_ne]
    rintro rfl
    exact absurd (hcredentials.symm.trans hother) (by simp)

/-- The index of the active server is an entry of its own. -/
theorem Saved.smpServersSetActive (h : Saved dev) (idx : UInt8) :
    Saved (dev.smpServersSetActive idx) := by
  rw [RotationDevice.smpServersSetActive]
  split
  · exact h.write rfl rfl _ rfl rfl rfl rfl rfl rfl
  · exact h

/-- A rotation that starts has its context stored and no records yet. -/
theorem Saved.rotationStart (h : Saved dev) (idx : UInt8) (srv : SmpServer) :
    Saved (dev.rotationStart idx srv).1 := by
  rw [RotationDevice.rotationStart]
  split
  · exact h
  · rename_i hguard
    have hno : dev.ctx.active = false := by
      rw [not_or] at hguard
      simpa using hguard.1
    split
    · exact h.smpServersSetActive idx
    · dsimp only [RotationDevice.saveContext]
      refine ⟨⟨?_, fun _ => rfl, fun _ i hi => ?_, fun hno => by cases hno⟩,
        h.credentials.frame rfl rfl rfl fun key hkey => ?_⟩
      · rw [loadedContext, nvs_write, Function.update_self]
        rfl
      · rw [loadedRecord, nvs_write, Function.update_of_ne (by simp)]
        change SameKeys (loadedRecord dev.nvs i) .zero
        rw [loadedRecord, h.rotation.noRecords hno i hi]
      · rw [nvs_write, Function.update_of_ne]
        · rfl
        · rintro rfl
          cases hkey

/-! ### The live switch -/

/-- NVS after the writes of a live switch, entry by entry. -/
theorem nvs_switched :
    (∀ key : FlashKey, key.ofRotation = true → dev.switched.nvs key = dev.nvs key) ∧
      (∀ i < maxContacts, dev.switched.nvs (.cnt i) =
        if (dev.contacts i).isActive then some (.contact (dev.migrateCredentials.contacts i))
        else none) ∧
      (∀ i, dev.switched.nvs (.rq i) =
        if i ∈ dev.migratedSlots then some (.replyQueue (dev.migrateCredentials.replyQueues i))
        else dev.nvs (.rq i)) ∧
      dev.switched.nvs .queueOur = some (.ourQueue dev.switched.ourQueue) := by
  obtain ⟨writes, hwrites, heq⟩ := dev.switched_eq
  have hflash := congrArg flash heq
  simp only [List.append_assoc] at hflash
  have hnvs := nvs_append hflash
  simp only [Store.applyAll_append] at hnvs
  have hmem : ∀ {i : ℕ}, i < maxContacts → i ∈ List.range maxContacts := List.mem_range.2
  have hkeep : ∀ key : FlashKey, key ≠ .cqE2ePeer →
      (dev.nvs.applyAll writes) key = dev.nvs key := fun key hkey =>
    Store.applyAll_of_forall_ne _ _ _ fun w hw hsame => hkey (hsame.symm.trans (hwrites w hw))
  have hcnt : ∀ (s : Store FlashKey FlashBlob) (key : FlashKey), (∀ i, key ≠ .cnt i) →
      s.applyAll dev.migrateCredentials.contactWrites key = s key := fun s key hkey =>
    Store.applyAll_of_forall_ne _ _ _ fun w hw hsame => by
      obtain ⟨i, -, rfl⟩ := List.mem_map.1 hw
      exact hkey i hsame.symm
  have hrq : ∀ (s : Store FlashKey FlashBlob) (key : FlashKey),
      (∀ i ∈ dev.migratedSlots, key ≠ .rq i) →
      s.applyAll dev.migrateCredentials.replyQueueWrites key = s key := fun s key hkey =>
    Store.applyAll_of_forall_ne _ _ _ fun w hw hsame => by
      obtain ⟨i, hi, rfl⟩ := List.mem_map.1 hw
      exact hkey i (by simpa using hi) hsame.symm
  refine ⟨fun key hkey => ?_, fun i hi => ?_, fun i => ?_, ?_⟩
  · rw [hnvs, Store.applyAll_cons, Store.applyAll_nil]
    have hne : key ≠ .queueOur := by rintro rfl; cases hkey
    rw [Function.update_of_ne hne, hrq _ _ (by rintro i - rfl; cases hkey),
      hcnt _ _ (by rintro i rfl; cases hkey), hkeep _ (by rintro rfl; cases hkey)]
  · rw [hnvs, Store.applyAll_cons, Store.applyAll_nil]
    rw [Function.update_of_ne (by simp), hrq _ _ (by simp), contactWrites,
      Store.applyAll_map _ _ FlashKey.cnt _ (fun a _ b _ h => by simpa using h) (hmem hi),
      migrateCredentials_isActive]
  · rw [hnvs, Store.applyAll_cons, Store.applyAll_nil]
    rw [Function.update_of_ne (by simp)]
    by_cases hi : i ∈ dev.migratedSlots
    · rw [if_pos hi, replyQueueWrites,
        Store.applyAll_map _ _ FlashKey.rq _ (fun a _ b _ h => by simpa using h) (by simpa using hi)]
    · rw [if_neg hi, hrq _ _ (fun j hj h => hi (by cases h; exact hj)), hcnt _ _ (by simp),
        hkeep _ (by simp)]
  · rw [hnvs, Store.applyAll_cons, Store.applyAll_nil, Function.update_self]

/-- The credentials are stored when the live switch has saved them. -/
theorem Saved.switched (h : Saved dev) : Saved dev.switched := by
  obtain ⟨hrotation, hcnt, hrq, hour⟩ := dev.nvs_switched
  obtain ⟨e2ePublic, e2ePrivate, hourQueue⟩ := dev.switched_ourQueue
  refine ⟨h.rotation.frame switched_ctx switched_records hrotation, ?_, ?_, ?_, hour, ?_⟩
  · intro i hi
    rw [hcnt i hi, switched_contacts, migrateCredentials_isActive]
  · intro i hi
    rw [loadedReplyQueue, hrq, switched_replyQueues]
    cases hmig : dev.migrates i with
    | true =>
      rw [if_pos (mem_migratedSlots.2 hmig), migrateCredentials_replyQueues hmig]
      simp [ReplyQueue.migrate, hi]
    | false =>
      rw [if_neg (by rw [mem_migratedSlots, hmig]; simp),
        migrateCredentials_replyQueues_of_not hmig]
      exact h.credentials.replyQueues i hi
  · intro i hi hno
    rw [switched_contacts, migrateCredentials_isActive] at hno
    have hmig : dev.migrates i = false := by
      by_contra hmig
      rw [Bool.not_eq_false, migrates_iff] at hmig
      exact absurd (hmig.2.1.symm.trans hno) (by simp)
    rw [switched_replyQueues, migrateCredentials_replyQueues_of_not hmig]
    exact h.credentials.freeQueues i hi hno
  · rw [hourQueue]
    exact h.credentials.ourValid

/-- An aborted rotation is stored as none. -/
theorem Saved.rotationAbort (h : Saved dev) : Saved dev.rotationAbort :=
  h.cleared rfl rfl rfl rfl rfl

/-- Everything is stored after `rotation_complete`. -/
theorem Saved.rotationComplete (h : Saved dev) (hactive : dev.ctx.active = true) :
    Saved dev.rotationComplete := by
  have hset := h.switched.smpServersSetActive dev.ctx.targetServerIdx
  rcases dev.rotationComplete_cases with heq | heq
  · rw [heq]
    exact hset.rotationAbort
  · rw [heq]
    exact hset.saveContext rfl (by rw [smpServersSetActive_ctx, switched_ctx]; exact hactive)

/-- A pass of the loop leaves everything stored. -/
theorem Saved.appRotationStep (h : Saved dev) (env : ℕ → ContactEnv) :
    Saved (dev.appRotationStep X env) := by
  refine appRotationStep_rule h.rotation.allocated ?_ (fun _ h => h) ?_ h
  · intro idx d d' hat hd hs
    cases hs with
    | record rd _ => exact hd.updateRecord hat.active hat.idx_lt rd
    | qaddSkipped _ =>
      rw [rotationMarkQaddSent, markState_eq hat.idx_lt]
      exact hd.updateRecord hat.active hat.idx_lt _
    | qaddUnconfirmed payload _ _ => exact hd.note _
    | qaddSent payload _ _ =>
      rw [rotationMarkQaddSent, markState_eq hat.idx_lt]
      exact (hd.note _).updateRecord hat.active hat.idx_lt _
    | quseSkipped _ _ =>
      rw [rotationMarkQuseSent, markState_eq hat.idx_lt]
      exact hd.updateRecord hat.active hat.idx_lt _
    | quseUnconfirmed payload _ _ _ _ => exact hd.note _
    | quseSent payload _ _ _ _ =>
      rw [rotationMarkQuseSent, markState_eq hat.idx_lt]
      exact (hd.note _).updateRecord hat.active hat.idx_lt _
  · intro d hactive _ hd
    have hlogged : Saved { d with completeLogged := true } :=
      ⟨hd.rotation.frame rfl rfl fun _ _ => rfl, hd.credentials.frame rfl rfl rfl fun _ _ => rfl⟩
    rw [liveSwitch]
    split
    · dsimp only
      split
      · exact hlogged
      · exact hlogged.rotationComplete hactive
    · exact hd

/-! ### Messages, contacts and start-ups -/

/-- A QKEY leaves everything stored that a start-up needs. -/
theorem Saved.rotationHandleQkey (h : Saved dev) (hactive : dev.ctx.active = true) (idx : ℕ)
    (data : List UInt8) : Saved (dev.rotationHandleQkey idx data) := by
  rcases rotationHandleQkey_cases idx data with heq | ⟨rd, hsame, hidx, -, heq | heq⟩
  · rw [heq]
    exact h
  · rw [heq]
    exact h.setRecord hsame
  · rw [heq]
    exact h.updateRecord hactive hidx _

/-- A QTEST leaves everything stored. -/
theorem Saved.rotationMarkQtestReceived (h : Saved dev) (hactive : dev.ctx.active = true) {idx : ℕ}
    (hidx : idx < maxContacts) : Saved (dev.rotationMarkQtestReceived idx) := by
  have hmarked : Saved (dev.markState idx .done) := by
    rw [markState_eq hidx]
    exact h.updateRecord hactive hidx _
  have hctx : (dev.markState idx .done).ctx.active = true := by
    rw [markState_eq hidx, updateRecord_ctx]
    exact hactive
  have hcounted : Saved (dev.qtestCounted idx) := hmarked.saveContext (by rw [hctx, hactive]) hctx
  rcases rotationMarkQtestReceived_cases (h.rotation.allocated hactive) hidx with
    ⟨-, heq⟩ | ⟨-, heq⟩
  · rw [heq]
    exact hcounted
  · rw [heq]
    exact hcounted.cleared rfl rfl rfl rfl rfl

/-- The loaded reply queue is the stored one, when it is valid. -/
theorem loadedReplyQueue_of_some {nvs : Store FlashKey FlashBlob} {i : ℕ} (hi : i < maxContacts)
    {q : ReplyQueue} (h : nvs (.rq i) = some (.replyQueue q)) :
    loadedReplyQueue nvs i = if q.valid then q else .zero := by
  rw [loadedReplyQueue, h]
  simp only [hi, true_and]

/-- The credentials stay stored when one slot changes and is stored again. -/
theorem CredentialsSaved.slot (h : CredentialsSaved dev) (idx : ℕ)
    (hcontacts : ∀ i ≠ idx, dev'.contacts i = dev.contacts i)
    (hreplyQueues : ∀ i ≠ idx, dev'.replyQueues i = dev.replyQueues i)
    (hourQueue : dev'.ourQueue = dev.ourQueue)
    (hnvs : ∀ key : FlashKey, key.ofCredentials = true → key ≠ .cnt idx → key ≠ .rq idx →
      dev'.nvs key = dev.nvs key)
    (hcnt : idx < maxContacts → dev'.nvs (.cnt idx) =
      if (dev'.contacts idx).isActive then some (.contact (dev'.contacts idx)) else none)
    (hrq : idx < maxContacts → loadedReplyQueue dev'.nvs idx =
      if (dev'.replyQueues idx).valid then dev'.replyQueues idx else .zero)
    (hfree : idx < maxContacts → (dev'.contacts idx).isActive = false →
      (dev'.replyQueues idx).valid = false) : CredentialsSaved dev' := by
  refine ⟨fun i hi => ?_, fun i hi => ?_, fun i hi => ?_, ?_, ?_⟩
  · by_cases hsame : i = idx
    · exact hsame ▸ hcnt (hsame ▸ hi)
    · rw [hnvs _ rfl (by simpa using hsame) (by simp), hcontacts i hsame]
      exact h.contacts i hi
  · by_cases hsame : i = idx
    · exact hsame ▸ hrq (hsame ▸ hi)
    · rw [loadedReplyQueue, hnvs _ rfl (by simp) (by simpa using hsame), hreplyQueues i hsame]
      exact h.replyQueues i hi
  · by_cases hsame : i = idx
    · exact hsame ▸ hfree (hsame ▸ hi)
    · rw [hcontacts i hsame, hreplyQueues i hsame]
      exact h.freeQueues i hi
  · rw [hnvs _ rfl (by simp) (by simp), hourQueue]
    exact h.ourQueue
  · rw [hourQueue]
    exact h.ourValid

/-- A key learned from a message is stored with its reply queue, and nothing else changes. -/
theorem nvs_learnPeerKey (idx : ℕ) (key : Bytes 32) : (dev.learnPeerKey idx (some key)).nvs =
    Function.update dev.nvs (.rq idx) (some
      (.replyQueue { dev.replyQueues idx with e2ePeerPublic := key, e2ePeerValid := true })) :=
  nvs_write ..

/-- It is not an entry of the rotation. -/
theorem nvs_learnPeerKey_of_rotation (idx : ℕ) (newPeer : Option (Bytes 32)) {key : FlashKey}
    (hkey : key.ofRotation = true) : (dev.learnPeerKey idx newPeer).nvs key = dev.nvs key := by
  cases newPeer with
  | none => rfl
  | some peer =>
    rw [nvs_learnPeerKey, Function.update_of_ne]
    rintro rfl
    cases hkey

/-- The credentials stay stored with a learned key. -/
theorem CredentialsSaved.learnPeerKey (h : CredentialsSaved dev) {idx : ℕ} (hidx : idx < maxContacts)
    (hvalid : (dev.replyQueues idx).valid = true) (newPeer : Option (Bytes 32)) :
    CredentialsSaved (dev.learnPeerKey idx newPeer) := by
  cases newPeer with
  | none => exact h
  | some key =>
    have hnvs := dev.nvs_learnPeerKey idx key
    have hqueue : (dev.learnPeerKey idx (some key)).replyQueues =
        Function.update dev.replyQueues idx
          { dev.replyQueues idx with e2ePeerPublic := key, e2ePeerValid := true } := rfl
    refine h.slot idx (fun _ _ => rfl) (fun i hi => ?_) rfl (fun key _ _ hkey => ?_) (fun _ => ?_)
      (fun _ => ?_) fun _ hno => ?_
    · rw [hqueue, Function.update_of_ne hi]
    · rw [hnvs, Function.update_of_ne hkey]
    · rw [hnvs, Function.update_of_ne (by simp)]
      exact h.contacts idx hidx
    · rw [hqueue, Function.update_self]
      exact loadedReplyQueue_of_some hidx (by rw [hnvs, Function.update_self])
    · exact absurd (hvalid.symm.trans (h.freeQueues idx hidx hno)) (by simp)

/-- Everything is stored after a key is learned. -/
theorem Saved.learnPeerKey (h : Saved dev) {idx : ℕ} (hidx : idx < maxContacts)
    (hvalid : (dev.replyQueues idx).valid = true) (newPeer : Option (Bytes 32)) :
    Saved (dev.learnPeerKey idx newPeer) := by
  refine ⟨h.rotation.frame ?_ ?_ fun key => nvs_learnPeerKey_of_rotation idx newPeer,
    h.credentials.learnPeerKey hidx hvalid newPeer⟩
  · rw [learnPeerKey_eq]
  · rw [learnPeerKey_eq]

/-- The slot a contact is added to is free. -/
theorem addContact_cases (dev : RotationDevice) (keys : ContactDevice.ContactKeys)
    (ids : ContactDevice.QueueIds)
    (rqKeys : NewQueueKeys) (rqIds : Option NewQueueIds) :
    dev.addContact X keys ids rqKeys rqIds = dev ∨
      ∃ slot < maxContacts, (dev.contacts slot).isActive = false ∧
        dev.addContact X keys ids rqKeys rqIds =
          ({ dev with
            contacts := Function.update dev.contacts slot (ContactDevice.createdContact keys ids)
            replyQueues := Function.update dev.replyQueues slot (createdReplyQueue X rqKeys rqIds)
            history := .added slot :: dev.history }).saveNewContact slot := by
  rw [addContact]
  split
  · exact .inl rfl
  · rename_i slot hfind
    refine .inr ⟨slot, List.mem_range.1 (List.mem_of_find?_eq_some hfind), ?_, rfl⟩
    simpa using List.find?_some hfind

/-- A new contact in RAM. -/
def withContact (dev : RotationDevice) (slot : ℕ) (c : Contact) (q : ReplyQueue)
    (history : List RotationEvent) : RotationDevice :=
  { dev with
    contacts := Function.update dev.contacts slot c
    replyQueues := Function.update dev.replyQueues slot q
    history := history }

/-- The save of a new contact changes NVS alone. -/
theorem saveNewContact_eq (slot : ℕ) :
    dev.saveNewContact slot = { dev with flash := (dev.saveNewContact slot).flash } := by
  rw [RotationDevice.saveNewContact]
  split <;> rfl

/-- NVS after a new contact is saved. -/
theorem nvs_saveNewContact (slot : ℕ) (c : Contact) (q : ReplyQueue)
    (history : List RotationEvent) : ((dev.withContact slot c q history).saveNewContact slot).nvs =
      if q.valid then Function.update (Function.update dev.nvs (.cnt slot) (some (.contact c)))
        (.rq slot) (some (.replyQueue q))
      else Function.update dev.nvs (.cnt slot) (some (.contact c)) := by
  have hcontact : (dev.withContact slot c q history).contacts slot = c := Function.update_self ..
  have hqueue : (dev.withContact slot c q history).replyQueues slot = q := Function.update_self ..
  have hbase : (dev.withContact slot c q history).nvs = dev.nvs := rfl
  rw [RotationDevice.saveNewContact, hqueue, hcontact]
  split <;> simp only [nvs_write, hbase]

/-- The other entries stay. -/
theorem nvs_saveNewContact_of_ne (slot : ℕ) (c : Contact) (q : ReplyQueue)
    (history : List RotationEvent) {key : FlashKey} (hcnt : key ≠ .cnt slot) (hrq : key ≠ .rq slot) :
    ((dev.withContact slot c q history).saveNewContact slot).nvs key = dev.nvs key := by
  rw [nvs_saveNewContact]
  split
  · rw [Function.update_of_ne hrq, Function.update_of_ne hcnt]
  · rw [Function.update_of_ne hcnt]

/-- The credentials are stored with those of a new contact. -/
theorem CredentialsSaved.saveNewContact (h : CredentialsSaved dev) {slot : ℕ}
    (hslot : slot < maxContacts) (hfree : (dev.contacts slot).isActive = false) {c : Contact}
    (hc : c.isActive = true) (q : ReplyQueue) (history : List RotationEvent) :
    CredentialsSaved ((dev.withContact slot c q history).saveNewContact slot) := by
  have hcontact : (dev.withContact slot c q history).contacts slot = c := Function.update_self ..
  have hqueue : (dev.withContact slot c q history).replyQueues slot = q := Function.update_self ..
  have hnvs := dev.nvs_saveNewContact slot c q history
  have heq := (dev.withContact slot c q history).saveNewContact_eq slot
  have hcontacts := congrArg RotationDevice.contacts heq
  have hqueues := congrArg RotationDevice.replyQueues heq
  have hour := congrArg RotationDevice.ourQueue heq
  dsimp only at hcontacts hqueues hour
  refine h.slot slot (fun i hi => ?_) (fun i hi => ?_) hour
    (fun key _ hcnt hrq => nvs_saveNewContact_of_ne slot c q history hcnt hrq) (fun _ => ?_)
    (fun _ => ?_) fun _ hno => ?_
  · rw [hcontacts]
    exact Function.update_of_ne hi ..
  · rw [hqueues]
    exact Function.update_of_ne hi ..
  · rw [hcontacts, hcontact, hnvs, if_pos hc]
    split
    · rw [Function.update_of_ne (by simp), Function.update_self]
    · rw [Function.update_self]
  · rw [hqueues, hqueue]
    cases hvalid : q.valid with
    | true =>
      have hstored : ((dev.withContact slot c q history).saveNewContact slot).nvs (.rq slot) =
          some (.replyQueue q) := by
        rw [hnvs, if_pos hvalid, Function.update_self]
      rw [loadedReplyQueue_of_some hslot hstored, hvalid]
    | false =>
      -- the slot was free, so nothing is loaded for its reply queue
      have hbefore := h.replyQueues slot hslot
      rw [h.freeQueues slot hslot hfree] at hbefore
      rw [loadedReplyQueue, hnvs, if_neg (by simp [hvalid]), Function.update_of_ne (by simp)]
      exact hbefore
  · rw [hcontacts, hcontact, hc] at hno
    cases hno

/-- A new contact is stored with its reply queue. -/
theorem Saved.saveNewContact (h : Saved dev) {slot : ℕ} (hslot : slot < maxContacts)
    (hfree : (dev.contacts slot).isActive = false) {c : Contact} (hc : c.isActive = true)
    (q : ReplyQueue) (history : List RotationEvent) :
    Saved ((dev.withContact slot c q history).saveNewContact slot) := by
  refine ⟨h.rotation.frame ?_ ?_ fun key hkey => nvs_saveNewContact_of_ne slot c q history ?_ ?_,
    h.credentials.saveNewContact hslot hfree hc q history⟩
  · rw [saveNewContact_eq]
    rfl
  · rw [saveNewContact_eq]
    rfl
  · rintro rfl
    cases hkey
  · rintro rfl
    cases hkey

/-! ### A start-up -/

/-- A start-up does not write to NVS. -/
theorem boot_flash (created : OurQueue) : (dev.boot created).flash = dev.flash := by
  rw [boot, rotationInit]
  split <;> rfl

/-- Nothing happens to a contact in a start-up. -/
theorem boot_history (created : OurQueue) : (dev.boot created).history = dev.history := by
  rw [boot, rotationInit]
  split <;> rfl

/-- The contacts are those of NVS. -/
theorem boot_contacts (created : OurQueue) :
    (dev.boot created).contacts = loadedContact dev.nvs := by
  rw [boot, rotationInit]
  split <;> rfl

/-- The reply queues are those of NVS. -/
theorem boot_replyQueues (created : OurQueue) :
    (dev.boot created).replyQueues = loadedReplyQueue dev.nvs := by
  rw [boot, rotationInit]
  split <;> rfl

/-- Our queue is that of NVS. -/
theorem boot_ourQueue (created : OurQueue) :
    (dev.boot created).ourQueue = loadedOurQueue dev.nvs created := by
  rw [boot, rotationInit]
  split <;> rfl

/-- The context is that of NVS, if a rotation is stored. -/
theorem boot_ctx (created : OurQueue) :
    (dev.boot created).ctx = (loadedContext dev.nvs).getD .zero := by
  rw [boot, rotationInit]
  split
  · rename_i ctx hctx
    have hload : loadedContext dev.nvs = some ctx := hctx
    rw [hload]
    rfl
  · rename_i hctx
    have hload : loadedContext dev.nvs = none := hctx
    rw [hload]
    rfl

/-- The records are those of NVS, if a rotation is stored. -/
theorem boot_records (created : OurQueue) : (dev.boot created).records =
    some (if (loadedContext dev.nvs).isSome then loadedRecord dev.nvs else fun _ => .zero) := by
  rw [boot, rotationInit]
  split
  · rename_i ctx hctx
    have hload : loadedContext dev.nvs = some ctx := hctx
    rw [hload]
    rfl
  · rename_i hctx
    have hload : loadedContext dev.nvs = none := hctx
    rw [hload]
    rfl

/-- The loaded contact is the stored one. -/
theorem loadedContact_of_some {nvs : Store FlashKey FlashBlob} {i : ℕ} (hi : i < maxContacts)
    {c : Contact} (h : nvs (.cnt i) = some (.contact c)) : loadedContact nvs i = c := by
  rw [loadedContact, h]
  exact if_pos hi

/-- A contact in use is the same after a start-up. -/
theorem Saved.boot_contact (h : Saved dev) (created : OurQueue) {i : ℕ} (hi : i < maxContacts)
    (hactive : (dev.contacts i).isActive = true) :
    (dev.boot created).contacts i = dev.contacts i := by
  rw [boot_contacts]
  exact loadedContact_of_some hi (by rw [h.credentials.contacts i hi, if_pos hactive])

/-- The same slots are in use after a start-up. -/
theorem Saved.boot_isActive (h : Saved dev) (created : OurQueue) {i : ℕ} (hi : i < maxContacts) :
    ((dev.boot created).contacts i).isActive = (dev.contacts i).isActive := by
  cases hactive : (dev.contacts i).isActive with
  | true => rw [h.boot_contact created hi hactive, hactive]
  | false =>
    have hnone : dev.nvs (.cnt i) = none := by
      rw [h.credentials.contacts i hi, if_neg (by simp [hactive])]
    rw [boot_contacts, loadedContact, hnone]
    rfl

/-- A valid reply queue is the same after a start-up, and an invalid one is empty. -/
theorem Saved.boot_replyQueue (h : Saved dev) (created : OurQueue) {i : ℕ} (hi : i < maxContacts) :
    (dev.boot created).replyQueues i =
      if (dev.replyQueues i).valid then dev.replyQueues i else .zero := by
  rw [boot_replyQueues]
  exact h.credentials.replyQueues i hi

/-- Our queue is the same after a start-up. -/
theorem Saved.boot_ourQueue (h : Saved dev) (created : OurQueue) :
    (dev.boot created).ourQueue = dev.ourQueue := by
  rw [RotationDevice.boot_ourQueue, loadedOurQueue, h.credentials.ourQueue]
  exact if_pos h.credentials.ourValid

/-- An active rotation goes on after a start-up. -/
theorem Saved.boot_ctx (h : Saved dev) (created : OurQueue) :
    (dev.boot created).ctx = if dev.ctx.active then dev.ctx else .zero := by
  rw [RotationDevice.boot_ctx, h.rotation.context]
  split <;> rfl

/-- A rotation is active after a start-up if it was before. -/
theorem Saved.boot_active (h : Saved dev) (created : OurQueue) :
    (dev.boot created).ctx.active = dev.ctx.active := by
  rw [h.boot_ctx created]
  cases hactive : dev.ctx.active with
  | true => exact hactive
  | false => rfl

/-- The records of an active rotation agree with those before the start-up. -/
theorem Saved.boot_record (h : Saved dev) (created : OurQueue) (hactive : dev.ctx.active = true)
    {i : ℕ} (hi : i < maxContacts) : SameKeys ((dev.boot created).record i) (dev.record i) := by
  have hrecords : (dev.boot created).records = some (loadedRecord dev.nvs) := by
    rw [boot_records, h.rotation.context, if_pos hactive]
    rfl
  rw [record_of_some hrecords]
  exact h.rotation.records hactive i hi

/-- Everything is still stored after a start-up. -/
theorem Saved.boot (h : Saved dev) (created : OurQueue) : Saved (dev.boot created) := by
  have hnvs : (dev.boot created).nvs = dev.nvs := by rw [nvs, boot_flash, nvs]
  refine ⟨⟨?_, ?_, ?_, ?_⟩, ?_, ?_, ?_, ?_, ?_⟩
  · rw [hnvs, h.rotation.context, h.boot_active created, h.boot_ctx created]
    split <;> rfl
  · intro _
    rw [boot_records]
    rfl
  · intro hactive i hi
    rw [h.boot_active created] at hactive
    rw [hnvs]
    exact (h.rotation.records hactive i hi).trans (h.boot_record created hactive hi).symm
  · intro hno i hi
    rw [hnvs]
    exact h.rotation.noRecords (h.boot_active created ▸ hno) i hi
  · intro i hi
    rw [hnvs, h.credentials.contacts i hi, h.boot_isActive created hi]
    split
    · rename_i hactive
      rw [h.boot_contact created hi hactive]
    · rfl
  · intro i hi
    rw [hnvs, h.credentials.replyQueues i hi, h.boot_replyQueue created hi]
    cases hvalid : (dev.replyQueues i).valid with
    | true => simp [hvalid]
    | false => rfl
  · intro i hi hno
    rw [h.boot_isActive created hi] at hno
    rw [h.boot_replyQueue created hi, h.credentials.freeQueues i hi hno]
    rfl
  · rw [hnvs, h.boot_ourQueue created]
    exact h.credentials.ourQueue
  · rw [h.boot_ourQueue created]
    exact h.credentials.ourValid

/-! ### Runs -/

/-- A message leaves everything stored. -/
theorem Saved.msgStep (h : Saved dev) {taken : Prop} {idx : ℕ} (hs : MsgStep taken idx dev dev') :
    Saved dev' := by
  cases hs with
  | same => exact h
  | qkey data hactive _ => exact h.rotationHandleQkey hactive idx data
  | qtest _ hactive hidx _ => exact h.rotationMarkQtestReceived hactive hidx

/-- Every step leaves everything stored. -/
theorem Saved.step (h : Saved dev) (label : RotationLabel) : Saved (dev.step X label) := by
  cases label with
  | start idx srv => exact h.rotationStart idx srv
  | appStep env => exact h.appRotationStep env
  | contactMsg idx env => exact h.msgStep (dev.contactMsg_step X idx env)
  | replyMsg idx legacy env =>
    obtain ⟨learned, hlearned, hs⟩ := dev.replyMsg_step X idx legacy env
    refine Saved.msgStep ?_ hs
    rcases hlearned with rfl | ⟨hidx, hvalid, rfl⟩
    · exact h
    · exact h.learnPeerKey hidx hvalid env.newPeer
  | addContact keys ids rqKeys rqIds =>
    rw [RotationDevice.step]
    rcases dev.addContact_cases keys ids rqKeys rqIds with heq | ⟨slot, hslot, hfree, heq⟩
    · rw [heq]
      exact h
    · rw [heq]
      exact h.saveNewContact hslot hfree rfl _ _
  | confirm idx =>
    rw [RotationDevice.step, sendAgentConfirmation]
    split
    · split
      · exact h
      · exact h.note _
    · exact h
  | abort => exact h.rotationAbort
  | reboot created => exact h.boot created

/-- A fresh device has stored everything. -/
theorem fresh_saved {ourQueue : OurQueue} (h : ourQueue.valid = true) (serverCount : ℕ) :
    Saved (fresh ourQueue serverCount) where
  rotation := ⟨rfl, fun h => (by cases h), fun h => (by cases h), fun _ _ _ => rfl⟩
  credentials := ⟨fun _ _ => rfl, fun _ _ => rfl, fun _ _ _ => rfl, rfl, h⟩

end RotationDevice

end SimpleGo
