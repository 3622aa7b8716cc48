import SimpleGo.Rotation.Pass
import SimpleGo.Rotation.Persistence

/-!
# A power loss between two writes

A step of the rotation writes entry by entry, and a power loss leaves NVS after some of its
writes. Each write is safe on its own: whatever prefix of them has landed, a start-up finds the
contacts in use, a valid queue of the device and a context it can resume.
-/

namespace SimpleGo

open Lib

/-- Outside ROT_IDLE the queues of a record are kept. -/
def RotationContactData.Settles (rd rd' : RotationContactData) : Prop :=
  rd.state ≠ .idle → rd'.state ≠ .idle ∧ rd'.main = rd.main ∧ rd'.rq = rd.rq

/-- No change. -/
theorem RotationContactData.Settles.refl (rd : RotationContactData) : rd.Settles rd :=
  fun h => ⟨h, rfl, rfl⟩

/-- One change after another. -/
theorem RotationContactData.Settles.trans {rd rd' rd'' : RotationContactData} (h : rd.Settles rd')
    (h' : rd'.Settles rd'') : rd.Settles rd'' := by
  intro hstate
  obtain ⟨hmid, hmain, hrq⟩ := h hstate
  obtain ⟨hend, hmain', hrq'⟩ := h' hmid
  exact ⟨hend, hmain'.trans hmain, hrq'.trans hrq⟩

/-- Records that agree on their queues. -/
theorem SameKeys.settles {rd rd' : RotationContactData} (h : SameKeys rd' rd) : rd.Settles rd' :=
  fun hstate => ⟨h.state ▸ hstate, h.main, h.rq⟩

/-- The loop keeps the queues of a contact that has left ROT_IDLE. -/
theorem RecordStep.settles {X : Sodium} {env : ContactEnv} {rd rd' : RotationContactData}
    (h : RecordStep X env rd rd') : rd.Settles rd' := by
  intro hstate
  cases h with
  | keySent _ _ _ _ => exact ⟨by simp, rfl, rfl⟩
  | _ => contradiction

namespace RotationDevice

/-! ### What a start-up needs -/

/-- NVS with these slots in use. -/
structure WellStored (inUse : ℕ → Bool) (nvs : Store FlashKey FlashBlob) : Prop where
  contacts : ∀ i < maxContacts, inUse i = true →
    ∃ c : Contact, c.isActive = true ∧ nvs (.cnt i) = some (.contact c)
  free : ∀ i < maxContacts, inUse i = false →
    nvs (.cnt i) = none ∧ (loadedReplyQueue nvs i).valid = false
  ourQueue : ∃ q : OurQueue, q.valid = true ∧ nvs .queueOur = some (.ourQueue q)
  host : ∀ ctx, loadedContext nvs = some ctx → (cString ctx.targetHost).length ≤ 63

/-- Everything a start-up reads is stored; records of an earlier rotation may be left while none
is active. -/
structure Restorable (dev : RotationDevice) : Prop where
  context : loadedContext dev.nvs = if dev.ctx.active then some dev.ctx else none
  allocated : dev.ctx.active = true → dev.records.isSome = true
  records : dev.ctx.active = true → ∀ i < maxContacts,
    SameKeys (loadedRecord dev.nvs i) (dev.record i)
  credentials : CredentialsSaved dev
  host : dev.ctx.active = true → (cString dev.ctx.targetHost).length ≤ 63

variable {X : Sodium} {dev dev' : RotationDevice}

/-- The slots in use. -/
def inUse (dev : RotationDevice) (i : ℕ) : Bool := (dev.contacts i).isActive

/-- An active rotation is saved as `Saved` has it. -/
theorem Restorable.saved (h : Restorable dev) (hactive : dev.ctx.active = true) : Saved dev :=
  ⟨⟨h.context, h.allocated, h.records, fun hno => absurd (hno.symm.trans hactive) (by simp)⟩,
    h.credentials⟩

/-- So is a device whose last rotation left no records behind. -/
theorem Restorable.saved_of_noRecords (h : Restorable dev)
    (hnone : ∀ i < maxContacts, dev.nvs (.rotC i) = none) : Saved dev :=
  ⟨⟨h.context, h.allocated, h.records, fun _ => hnone⟩, h.credentials⟩

/-- What is saved can be restored. -/
theorem Saved.restorable (h : Saved dev)
    (hhost : dev.ctx.active = true → (cString dev.ctx.targetHost).length ≤ 63) : Restorable dev :=
  ⟨h.rotation.context, h.rotation.allocated, h.rotation.records, h.credentials, hhost⟩

/-- A device that can be restored is stored well. -/
theorem Restorable.wellStored (h : Restorable dev) : WellStored dev.inUse dev.nvs where
  contacts i hi hin := ⟨_, hin, (h.credentials.contacts i hi).trans (if_pos hin)⟩
  free i hi hin := by
    refine ⟨?_, ?_⟩
    · rw [h.credentials.contacts i hi, if_neg (by simpa [inUse] using hin)]
    · rw [h.credentials.replyQueues i hi, h.credentials.freeQueues i hi hin]
      rfl
  ourQueue := ⟨_, h.credentials.ourValid, h.credentials.ourQueue⟩
  host ctx hctx := by
    rw [h.context] at hctx
    split at hctx
    · rename_i hactive
      obtain rfl := Option.some.inj hctx
      exact h.host hactive
    · cases hctx

/-- A loaded context is active. -/
theorem loadedContext_active {nvs : Store FlashKey FlashBlob} {ctx : RotationContext}
    (h : loadedContext nvs = some ctx) : ctx.active = true := by
  rw [loadedContext] at h
  split at h
  · split at h
    · rename_i hactive
      obtain rfl := Option.some.inj h
      exact hactive
    · cases h
  · cases h

/-- The context after a start-up, from its entry. -/
theorem boot_loadedContext (created : OurQueue) : loadedContext dev.nvs =
    if (dev.boot created).ctx.active then some (dev.boot created).ctx else none := by
  rw [boot_ctx]
  cases hctx : loadedContext dev.nvs with
  | none => rfl
  | some ctx =>
    rw [Option.getD_some, if_pos (loadedContext_active hctx)]

/-- A start-up does not change NVS. -/
theorem boot_nvs (created : OurQueue) : (dev.boot created).nvs = dev.nvs := by
  rw [nvs, boot_flash, nvs]

/-- The loaded contact of a slot that is not stored. -/
theorem loadedContact_of_none {nvs : Store FlashKey FlashBlob} {i : ℕ} (h : nvs (.cnt i) = none) :
    loadedContact nvs i = .zero := by
  rw [loadedContact, h]

/-- A loaded reply queue is valid, or empty. -/
theorem loadedReplyQueue_eq (nvs : Store FlashKey FlashBlob) (i : ℕ) :
    loadedReplyQueue nvs i =
      if (loadedReplyQueue nvs i).valid then loadedReplyQueue nvs i else .zero := by
  rw [loadedReplyQueue]
  split
  · split
    · rename_i hvalid
      rw [if_pos hvalid.2]
    · rfl
  · rfl

/-- The same slots are in use after a start-up. -/
theorem WellStored.boot_inUse {slots : ℕ → Bool} (h : WellStored slots dev.nvs) (created : OurQueue)
    {i : ℕ} (hi : i < maxContacts) : (dev.boot created).inUse i = slots i := by
  rw [inUse, boot_contacts]
  cases hin : slots i with
  | true =>
    obtain ⟨c, hc, hstored⟩ := h.contacts i hi hin
    rw [loadedContact_of_some hi hstored, hc]
  | false =>
    rw [loadedContact_of_none (h.free i hi hin).1]
    rfl

/-- A start-up from what is stored well gives a device that can be restored again. -/
theorem WellStored.boot {slots : ℕ → Bool} (h : WellStored slots dev.nvs) (created : OurQueue) :
    Restorable (dev.boot created) := by
  obtain ⟨q, hvalid, hq⟩ := h.ourQueue
  have hour : (dev.boot created).ourQueue = q := by
    rw [RotationDevice.boot_ourQueue, loadedOurQueue, hq]
    exact if_pos hvalid
  refine ⟨?_, fun _ => ?_, fun hactive i _ => ?_, ⟨fun i hi => ?_, fun i _ => ?_, fun i hi hno => ?_,
    ?_, ?_⟩, fun hactive => ?_⟩
  · rw [boot_nvs]
    exact boot_loadedContext created
  · rw [boot_records]
    rfl
  · have hsome : (loadedContext dev.nvs).isSome = true := by
      rw [boot_loadedContext created, if_pos hactive]
      rfl
    have hrecords := dev.boot_records created
    rw [if_pos hsome] at hrecords
    rw [boot_nvs, record_of_some hrecords]
  · rw [boot_nvs]
    cases hin : slots i with
    | true =>
      obtain ⟨c, hc, hstored⟩ := h.contacts i hi hin
      rw [boot_contacts, loadedContact_of_some hi hstored, if_pos hc, hstored]
    | false =>
      have hnone := (h.free i hi hin).1
      rw [boot_contacts, loadedContact_of_none hnone, hnone]
      rfl
  · rw [boot_nvs, boot_replyQueues]
    exact loadedReplyQueue_eq dev.nvs i
  · have hslot : slots i = false := by rw [← h.boot_inUse created hi, inUse, hno]
    rw [boot_replyQueues]
    exact (h.free i hi hslot).2
  · rw [boot_nvs, hq, hour]
  · rw [hour, hvalid]
  · exact h.host _ (by rw [boot_loadedContext created, if_pos hactive])

/-! ### Writes -/

/-- One write of a step, as the contacts and the records are before the step. -/
inductive SafeWrite (dev : RotationDevice) : FlashKey × Option FlashBlob → Prop
  | context (ctx : RotationContext) (h : (cString ctx.targetHost).length ≤ 63) :
    SafeWrite dev (.rotCtx, some (.context ctx))
  | record (i : ℕ) (rd : RotationContactData) (h : (dev.record i).Settles rd) :
    SafeWrite dev (.rotC i, some (.record rd))
  | contact (i : ℕ) (c : Contact) (hin : dev.inUse i = true) (hc : c.isActive = true) :
    SafeWrite dev (.cnt i, some (.contact c))
  | free (i : ℕ) (hin : dev.inUse i = false) : SafeWrite dev (.cnt i, none)
  | replyQueue (i : ℕ) (q : ReplyQueue) (hin : dev.inUse i = true) :
    SafeWrite dev (.rq i, some (.replyQueue q))
  | ourQueue (q : OurQueue) (hvalid : q.valid = true) :
    SafeWrite dev (.queueOur, some (.ourQueue q))
  | other (key : FlashKey) (blob : Option FlashBlob) (hrotation : key.ofRotation = false)
      (hcredentials : key.ofCredentials = false) : SafeWrite dev (key, blob)

/-- What is stored well depends on the credentials and the context. -/
theorem WellStored.frame {slots : ℕ → Bool} {nvs nvs' : Store FlashKey FlashBlob}
    (h : WellStored slots nvs) (hnvs : ∀ key : FlashKey, key.ofCredentials = true →
      nvs' key = nvs key)
    (hhost : ∀ ctx, loadedContext nvs' = some ctx → (cString ctx.targetHost).length ≤ 63) :
    WellStored slots nvs' := by
  refine ⟨fun i hi hin => ?_, fun i hi hin => ?_, ?_, hhost⟩
  · rw [hnvs _ rfl]
    exact h.contacts i hi hin
  · rw [hnvs _ rfl, loadedReplyQueue, hnvs _ rfl]
    exact h.free i hi hin
  · rw [hnvs _ rfl]
    exact h.ourQueue

/-- The same context is loaded where its entry is the same. -/
theorem loadedContext_congr {nvs nvs' : Store FlashKey FlashBlob}
    (h : nvs' .rotCtx = nvs .rotCtx) : loadedContext nvs' = loadedContext nvs := by
  rw [loadedContext, h, loadedContext]

/-- The same reply queue is loaded where its entry is the same. -/
theorem loadedReplyQueue_congr {nvs nvs' : Store FlashKey FlashBlob} {i : ℕ}
    (h : nvs' (.rq i) = nvs (.rq i)) : loadedReplyQueue nvs' i = loadedReplyQueue nvs i := by
  rw [loadedReplyQueue, h, loadedReplyQueue]

/-- One write leaves NVS stored well. -/
theorem WellStored.write {nvs : Store FlashKey FlashBlob} (h : WellStored dev.inUse nvs)
    {w : FlashKey × Option FlashBlob} (hw : SafeWrite dev w) :
    WellStored dev.inUse (Function.update nvs w.1 w.2) := by
  -- only a write of the context changes which context is loaded
  have hhost : w.1 ≠ .rotCtx → ∀ ctx, loadedContext (Function.update nvs w.1 w.2) = some ctx →
      (cString ctx.targetHost).length ≤ 63 := fun hkey ctx hctx =>
    h.host ctx (by rwa [loadedContext_congr (Function.update_of_ne hkey.symm ..)] at hctx)
  have hframe : w.1.ofCredentials = false → ∀ key : FlashKey, key.ofCredentials = true →
      Function.update nvs w.1 w.2 key = nvs key := by
    intro hno key hkey
    refine Function.update_of_ne ?_ ..
    rintro rfl
    exact absurd (hno.symm.trans hkey) (by simp)
  cases hw with
  | context ctx hfits =>
    refine h.frame (hframe rfl) fun ctx' hctx' => ?_
    rw [loadedContext, Function.update_self] at hctx'
    dsimp only at hctx'
    split at hctx'
    · obtain rfl := Option.some.inj hctx'
      exact hfits
    · cases hctx'
  | record i rd _ => exact h.frame (hframe rfl) (hhost (by simp))
  | other key blob hrotation hcredentials =>
    refine h.frame (hframe hcredentials) (hhost ?_)
    rintro rfl
    cases hrotation
  | contact i c hin hc =>
    refine ⟨fun j hj hjn => ?_, fun j hj hjn => ?_, ?_, hhost (by simp)⟩
    · by_cases hsame : j = i
      · subst hsame
        exact ⟨c, hc, Function.update_self ..⟩
      · rw [Function.update_of_ne (by simpa using hsame)]
        exact h.contacts j hj hjn
    · have hne : j ≠ i := by
        rintro rfl
        exact absurd (hjn.symm.trans hin) (by simp)
      rw [loadedReplyQueue_congr (Function.update_of_ne (by simp) ..),
        Function.update_of_ne (by simpa using hne)]
      exact h.free j hj hjn
    · rw [Function.update_of_ne (by simp)]
      exact h.ourQueue
  | free i hin =>
    refine ⟨fun j hj hjn => ?_, fun j hj hjn => ?_, ?_, hhost (by simp)⟩
    · have hne : j ≠ i := by
        rintro rfl
        exact absurd (hjn.symm.trans hin) (by simp)
      rw [Function.update_of_ne (by simpa using hne)]
      exact h.contacts j hj hjn
    · rw [loadedReplyQueue_congr (Function.update_of_ne (by simp) ..)]
      refine ⟨?_, (h.free j hj hjn).2⟩
      by_cases hsame : j = i
      · subst hsame
        exact Function.update_self ..
      · rw [Function.update_of_ne (by simpa using hsame)]
        exact (h.free j hj hjn).1
    · rw [Function.update_of_ne (by simp)]
      exact h.ourQueue
  | replyQueue i q hin =>
    refine ⟨fun j hj hjn => ?_, fun j hj hjn => ?_, ?_, hhost (by simp)⟩
    · rw [Function.update_of_ne (by simp)]
      exact h.contacts j hj hjn
    · have hne : j ≠ i := by
        rintro rfl
        exact absurd (hjn.symm.trans hin) (by simp)
      rw [loadedReplyQueue_congr (Function.update_of_ne (by simpa using hne) ..),
        Function.update_of_ne (by simp)]
      exact h.free j hj hjn
    · rw [Function.update_of_ne (by simp)]
      exact h.ourQueue
  | ourQueue q hvalid =>
    refine ⟨fun j hj hjn => ?_, fun j hj hjn => ?_, ⟨q, hvalid, Function.update_self ..⟩,
      hhost (by simp)⟩
    · rw [Function.update_of_ne (by simp)]
      exact h.contacts j hj hjn
    · rw [loadedReplyQueue_congr (Function.update_of_ne (by simp) ..),
        Function.update_of_ne (by simp)]
      exact h.free j hj hjn

/-- So does a deleted entry of the rotation. -/
theorem WellStored.delete {slots : ℕ → Bool} {nvs : Store FlashKey FlashBlob}
    (h : WellStored slots nvs) {key : FlashKey} (hkey : key ∈ clearedKeys) :
    WellStored slots (Function.update nvs key none) := by
  refine h.frame (fun other hother => Function.update_of_ne ?_ ..) fun ctx hctx => h.host ctx ?_
  · rintro rfl
    rcases mem_clearedKeys.1 hkey with rfl | ⟨i, -, rfl⟩ <;> cases hother
  · by_cases hsame : key = .rotCtx
    · subst hsame
      rw [loadedContext, Function.update_self] at hctx
      cases hctx
    · rwa [loadedContext_congr (Function.update_of_ne (Ne.symm hsame) ..)] at hctx

/-- So do several writes. -/
theorem WellStored.applyAll {nvs : Store FlashKey FlashBlob} (h : WellStored dev.inUse nvs)
    {writes : List (FlashKey × Option FlashBlob)}
    (hwrites : ∀ w ∈ writes, SafeWrite dev w ∨ ∃ key ∈ clearedKeys, w = (key, none)) :
    WellStored dev.inUse (nvs.applyAll writes) := by
  induction writes generalizing nvs with
  | nil => exact h
  | cons w writes ih =>
    rw [Store.applyAll_cons]
    refine ih ?_ fun w' hw' => hwrites w' (List.mem_cons_of_mem _ hw')
    rcases hwrites w List.mem_cons_self with hw | ⟨key, hkey, rfl⟩
    · exact h.write hw
    · exact h.delete hkey

/-- A write that leaves the credentials and the target of the rotation alone. -/
inductive KeepingWrite (dev : RotationDevice) : FlashKey × Option FlashBlob → Prop
  | record (i : ℕ) (rd : RotationContactData) (h : (dev.record i).Settles rd) :
    KeepingWrite dev (.rotC i, some (.record rd))
  | counted (n : UInt8) (h : dev.ctx.active = true) :
    KeepingWrite dev (.rotCtx, some (.context { dev.ctx with contactsDone := n }))
  | other (key : FlashKey) (blob : Option FlashBlob) (hrotation : key.ofRotation = false)
      (hcredentials : key.ofCredentials = false) : KeepingWrite dev (key, blob)

/-- Such a write is safe. -/
theorem KeepingWrite.safe {w : FlashKey × Option FlashBlob} (h : KeepingWrite dev w)
    (hhost : dev.ctx.active = true → (cString dev.ctx.targetHost).length ≤ 63) :
    SafeWrite dev w := by
  cases h with
  | record i rd h => exact .record i rd h
  | counted n h => exact .context _ (hhost h)
  | other key blob hrotation hcredentials => exact .other key blob hrotation hcredentials

/-- It is not one of the credentials. -/
theorem KeepingWrite.key {w : FlashKey × Option FlashBlob} (h : KeepingWrite dev w) :
    w.1.ofCredentials = false := by
  cases h with
  | other key blob hrotation hcredentials => exact hcredentials
  | _ => rfl

/-- The deletions that end a rotation. -/
def clearedWrites : List (FlashKey × Option FlashBlob) := clearedKeys.map fun key => (key, none)

/-! ### The writes of a pass -/

/-- The write of a record. -/
theorem updateRecord_flash (h : dev.records.isSome = true) {idx : ℕ} (hidx : idx < maxContacts)
    (rd : RotationContactData) : (dev.updateRecord idx rd).flash =
      dev.flash ++ [(.rotC idx, some (.record rd))] := by
  obtain ⟨rs, hrs⟩ := Option.isSome_iff_exists.1 h
  have hset : (dev.setRecord idx rd).records = some (Function.update rs idx rd) := by
    rw [setRecord, hrs]
    rfl
  rw [updateRecord, saveContactData, hset]
  dsimp only
  rw [if_pos hidx, Function.update_self]
  rfl

/-- The records have been worked on. -/
structure Worked (dev d : RotationDevice) : Prop where
  settles : ∀ j, (dev.record j).Settles (d.record j)
  writes : ∃ body, (∀ w ∈ body, KeepingWrite dev w) ∧ d.flash = dev.flash ++ body

/-- Nothing has been done yet. -/
theorem Worked.refl (dev : RotationDevice) : Worked dev dev :=
  ⟨fun _ => .refl _, [], by simp, by simp⟩

/-- An event is not stored. -/
theorem Worked.note {d : RotationDevice} (h : Worked dev d) (event : RotationEvent) :
    Worked dev (d.note event) := ⟨h.settles, h.writes⟩

/-- One more record. -/
theorem Worked.updateRecord {d : RotationDevice} (h : Worked dev d)
    (hsome : d.records.isSome = true) {idx : ℕ} (hidx : idx < maxContacts)
    {rd : RotationContactData} (hrd : (d.record idx).Settles rd) :
    Worked dev (d.updateRecord idx rd) := by
  have hsettles := (h.settles idx).trans hrd
  refine ⟨fun j => ?_, ?_⟩
  · by_cases hj : j = idx
    · subst hj
      rw [updateRecord_record_self hsome]
      exact hsettles
    · rw [updateRecord_record_of_ne hj]
      exact h.settles j
  · obtain ⟨body, hbody, hflash⟩ := h.writes
    refine ⟨body ++ [(.rotC idx, some (.record rd))], fun w hw => ?_, ?_⟩
    · rcases List.mem_append.1 hw with hw | hw
      · exact hbody w hw
      · rw [List.mem_singleton.1 hw]
        exact .record idx rd hsettles
    · rw [updateRecord_flash hsome hidx, hflash, List.append_assoc]

/-- A mark of a contact that has left ROT_IDLE. -/
theorem Worked.markState {d : RotationDevice} (h : Worked dev d) (hsome : d.records.isSome = true)
    {idx : ℕ} (hidx : idx < maxContacts) {state : RotationContactState} (hstate : state ≠ .idle) :
    Worked dev (d.markState idx state) := by
  rw [markState_eq hidx]
  exact h.updateRecord hsome hidx fun _ => ⟨hstate, rfl, rfl⟩

/-- The small steps of the loop work on the records. -/
theorem worked_keptAt (dev : RotationDevice) (env : ContactEnv) (idx : ℕ) :
    KeptAt X env idx (Worked dev) := by
  intro d d' hat hd hs
  cases hs with
  | record rd hrd => exact hd.updateRecord hat.allocated hat.idx_lt hrd.settles
  | qaddSkipped _ => exact hd.markState hat.allocated hat.idx_lt (by simp)
  | qaddUnconfirmed payload _ _ => exact hd.note _
  | qaddSent payload _ _ => exact (hd.note _).markState hat.allocated hat.idx_lt (by simp)
  | quseSkipped _ _ => exact hd.markState hat.allocated hat.idx_lt (by simp)
  | quseUnconfirmed payload _ _ _ _ => exact hd.note _
  | quseSent payload _ _ _ _ => exact (hd.note _).markState hat.allocated hat.idx_lt (by simp)

/-- The device when a pass has come to the live switch. -/
structure Switching (dev d : RotationDevice) : Prop where
  worked : Worked dev d
  same : SameCredentials dev d
  ctx : d.ctx = dev.ctx
  active : dev.ctx.active = true
  elsewhere : dev.onTarget = false
  moved : ∀ i ∈ dev.activeSlots, d.migrates i = true
  queues : ∀ i ∈ dev.activeSlots, (dev.record i).state ≠ .idle

/-- A contact in ROT_IDLE is not ready when the loop has passed it. -/
theorem quietState_ne_idle {rd : RotationContactData} {env : ContactEnv}
    (h : quietState rd env ≠ .idle) : rd.state ≠ .idle := by
  intro hidle
  refine h ?_
  rw [quietState, hidle]
  split <;> rfl

/-- A pass works on the records, and may make the live switch after that. -/
theorem appRotationStep_worked (hrecords : dev.ctx.active = true → dev.records.isSome = true)
    (env : ℕ → ContactEnv) :
    (Worked dev (dev.appRotationStep X env) ∧ SameCredentials dev (dev.appRotationStep X env) ∧
      (dev.appRotationStep X env).ctx = dev.ctx) ∨
    ∃ d, Switching dev d ∧ dev.appRotationStep X env = d.rotationComplete := by
  rcases appRotationStep_spec hrecords (fun idx => worked_keptAt dev (env idx) idx)
    (Worked.refl dev) with ⟨d, logged, hd, hsame, hctx, heq⟩ | ⟨hnow, d, hd, hquiet, hmoved, heq⟩
  · rw [heq]
    exact .inl ⟨⟨hd.settles, hd.writes⟩, ⟨hsame.contacts, hsame.replyQueues, hsame.ourQueue⟩, hctx⟩
  · refine .inr ⟨{ d with completeLogged := true }, ⟨⟨hd.settles, hd.writes⟩, ?_, ?_, hnow.1,
      hnow.2.1, hmoved, fun i hi => ?_⟩, heq⟩
    · rw [hquiet.same]
      exact ⟨rfl, rfl, rfl⟩
    · rw [hquiet.same]
    · have hstate := (migrates_iff.1 (hmoved i hi)).2.2
      rw [getContactState_eq (mem_activeSlots.1 hi).1, hquiet.passed i hi] at hstate
      have hnext : quietState (dev.record i) (env i) ≠ .idle := fun hidle => by
        rcases hstate with h | h <;> cases hidle.symm.trans h
      exact quietState_ne_idle hnext

/-- The writes of the live switch: the contacts, their reply queues, our queue, and the rotation
at last. -/
theorem rotationComplete_writes (hactive : dev.ctx.active = true) :
    ∃ before after tail, (∀ w ∈ before, KeepingWrite dev w) ∧ (∀ w ∈ after, KeepingWrite dev w) ∧
      ((tail = [] ∧ dev.rotationComplete.ctx = dev.ctx) ∨
        (tail = clearedWrites ∧ dev.rotationComplete.ctx.active = false)) ∧
      dev.rotationComplete.flash = dev.flash ++ (before ++ (dev.migrateCredentials.contactWrites ++
        (dev.migrateCredentials.replyQueueWrites ++
          ((.queueOur, some (.ourQueue dev.switched.ourQueue)) :: (after ++ tail))))) := by
  obtain ⟨before, hbefore, heq⟩ := dev.switched_eq
  have hflash := congrArg flash heq
  have hkeeping : ∀ w ∈ before, KeepingWrite dev w := by
    rintro ⟨key, blob⟩ hw
    obtain rfl : key = .cqE2ePeer := hbefore _ hw
    exact .other _ _ rfl rfl
  -- the write of the active server, if the index is one of a server
  obtain ⟨server, hserver, hset⟩ : ∃ server : List (FlashKey × Option FlashBlob),
      (∀ w ∈ server, KeepingWrite dev w) ∧
        (dev.switched.smpServersSetActive dev.ctx.targetServerIdx).flash =
          dev.switched.flash ++ server := by
    rw [smpServersSetActive]
    split
    · exact ⟨[_], fun w hw => by rw [List.mem_singleton.1 hw]; exact .other _ _ rfl rfl, rfl⟩
    · exact ⟨[], by simp, by simp⟩
  rcases dev.rotationComplete_cases with h | h
  · refine ⟨before, server, clearedWrites, hkeeping, hserver, .inr ⟨rfl, by rw [h]; rfl⟩, ?_⟩
    have hclear : dev.rotationComplete.flash =
        (dev.switched.smpServersSetActive dev.ctx.targetServerIdx).flash ++ clearedWrites := by
      rw [h]
      rfl
    rw [hclear, hset, hflash]
    simp only [List.append_assoc, List.cons_append, List.nil_append]
  · refine ⟨before, server ++ [(.rotCtx, some (.context dev.ctx))], [], hkeeping, ?_,
      .inl ⟨rfl, ?_⟩, ?_⟩
    · intro w hw
      rcases List.mem_append.1 hw with hw | hw
      · exact hserver w hw
      · rw [List.mem_singleton.1 hw]
        exact .counted dev.ctx.contactsDone hactive
    · rw [h]
      change (dev.switched.smpServersSetActive dev.ctx.targetServerIdx).ctx = dev.ctx
      rw [smpServersSetActive_ctx, switched_ctx]
    · have hsave : dev.rotationComplete.flash =
          (dev.switched.smpServersSetActive dev.ctx.targetServerIdx).flash ++
            [(.rotCtx, some (.context dev.ctx))] := by
        rw [h, saveContext, write, smpServersSetActive_ctx, switched_ctx]
      rw [hsave, hset, hflash]
      simp only [List.append_assoc, List.cons_append, List.nil_append, List.append_nil]

/-! ### The writes of a message -/

/-- What a QKEY reads is kept with the queues. -/
theorem setRecord_settles {idx : ℕ} {rd : RotationContactData}
    (hsame : SameKeys rd (dev.record idx)) (j : ℕ) :
    (dev.record j).Settles ((dev.setRecord idx rd).record j) := by
  cases hrs : dev.records with
  | none =>
    have hnone : (dev.setRecord idx rd).record j = dev.record j := by
      rw [record, record, setRecord, hrs]
      rfl
    rw [hnone]
    exact .refl _
  | some rs =>
    have hrecord : (dev.setRecord idx rd).record j = Function.update rs idx rd j := by
      rw [record, setRecord, hrs]
      rfl
    rw [record_of_some hrs] at hsame ⊢
    rw [hrecord]
    by_cases hj : j = idx
    · subst hj
      rw [Function.update_self]
      exact hsame.settles
    · rw [Function.update_of_ne hj]
      exact .refl _

/-- A counted QTEST: the mark, then the context. -/
theorem qtestCounted_flash (hsome : dev.records.isSome = true) {idx : ℕ} (hidx : idx < maxContacts) :
    (dev.qtestCounted idx).flash = dev.flash ++
      [(.rotC idx, some (.record { dev.record idx with state := .done })),
        (.rotCtx, some (.context { dev.ctx with contactsDone := dev.ctx.contactsDone + 1 }))] := by
  have hmarked : (dev.markState idx .done).flash = dev.flash ++
      [(.rotC idx, some (.record { dev.record idx with state := .done }))] := by
    rw [markState_eq hidx, updateRecord_flash hsome hidx]
  change (dev.markState idx .done).flash ++ [_] = _
  rw [hmarked, List.append_assoc]
  rfl

/-- What a message writes, and that it ends the rotation as the last QTEST alone. -/
theorem MsgStep.writes {taken : Prop} {idx : ℕ} {d : RotationDevice}
    (hrecords : dev.ctx.active = true → dev.records.isSome = true) (hs : MsgStep taken idx dev d) :
    (d.ctx.active = true → ∀ j, (dev.record j).Settles (d.record j)) ∧
      ∃ body tail, (∀ w ∈ body, KeepingWrite dev w) ∧ d.flash = dev.flash ++ (body ++ tail) ∧
        ((tail = [] ∧ ∃ n, d.ctx = { dev.ctx with contactsDone := n }) ∨
          (tail = clearedWrites ∧ d.ctx.active = false ∧ dev.ctx.active = true ∧ taken ∧
            dev.othersQtestDone idx)) := by
  have hsamectx : ∀ d : RotationDevice, d.ctx = dev.ctx →
      ∃ n, d.ctx = { dev.ctx with contactsDone := n } := fun d h => ⟨dev.ctx.contactsDone, h⟩
  cases hs with
  | same => exact ⟨fun _ _ => .refl _, [], [], by simp, by simp, .inl ⟨rfl, hsamectx _ rfl⟩⟩
  | qkey data hactive hidx =>
    have hsome := hrecords hactive
    rcases dev.rotationHandleQkey_cases idx data with heq | ⟨rd, hkeys, -, hstate, heq | heq⟩
    · rw [heq]
      exact ⟨fun _ _ => .refl _, [], [], by simp, by simp, .inl ⟨rfl, hsamectx _ rfl⟩⟩
    · rw [heq]
      exact ⟨fun _ => setRecord_settles hkeys, [], [], by simp, by simp [setRecord],
        .inl ⟨rfl, hsamectx _ rfl⟩⟩
    · rw [heq]
      have hsettles : (dev.record idx).Settles { rd with state := .qkeyReceived } :=
        fun _ => ⟨by simp, hkeys.main, hkeys.rq⟩
      obtain ⟨hkept, body, hbody, hflash⟩ := (Worked.refl dev).updateRecord hsome hidx hsettles
      exact ⟨fun _ => hkept, body, [], hbody, by rw [hflash, List.append_nil],
        .inl ⟨rfl, hsamectx _ (updateRecord_ctx ..)⟩⟩
  | qtest htaken hactive hidx hstate =>
    have hsome := hrecords hactive
    have hbody : ∀ w ∈ [((.rotC idx : FlashKey), some (FlashBlob.record
        { dev.record idx with state := .done })), (.rotCtx, some (.context
          { dev.ctx with contactsDone := dev.ctx.contactsDone + 1 }))], KeepingWrite dev w := by
      intro w hw
      simp only [List.mem_cons, List.not_mem_nil, or_false] at hw
      rcases hw with rfl | rfl
      · exact .record _ _ fun _ => ⟨by simp, rfl, rfl⟩
      · exact .counted _ hactive
    rcases rotationMarkQtestReceived_cases hsome hidx with ⟨-, heq⟩ | ⟨hlast, heq⟩
    · rw [heq]
      refine ⟨fun _ => ?_, _, [], hbody, ?_, .inl ⟨rfl, _, rfl⟩⟩
      · exact ((Worked.refl dev).markState hsome hidx (by simp)).settles
      · rw [qtestCounted_flash hsome hidx, List.append_nil]
    · rw [heq]
      refine ⟨fun hno => (by cases hno), _, clearedWrites, hbody, ?_,
        .inr ⟨rfl, rfl, hactive, htaken, hlast⟩⟩
      change (dev.qtestCounted idx).flash ++ clearedWrites = _
      rw [qtestCounted_flash hsome hidx, List.append_assoc]

/-- The write of a learned key. -/
theorem learnPeerKey_flash (idx : ℕ) (newPeer : Option (Bytes 32)) :
    (dev.learnPeerKey idx newPeer).flash = dev.flash ∨
      (dev.learnPeerKey idx newPeer).flash = dev.flash ++
        [(.rq idx, some (.replyQueue ((dev.learnPeerKey idx newPeer).replyQueues idx)))] := by
  cases newPeer with
  | none => exact .inl rfl
  | some key =>
    refine .inr ?_
    rw [learnPeerKey]
    dsimp only [write]
    rw [Function.update_self]

/-! ### Steps -/

/-- The rotation's part of what can be restored depends on the context, the records and their
entries. -/
theorem Restorable.frame (h : Restorable dev) (hctx : dev'.ctx = dev.ctx)
    (hrecords : dev'.records = dev.records)
    (hnvs : ∀ key : FlashKey, key.ofRotation = true → dev'.nvs key = dev.nvs key)
    (hcredentials : CredentialsSaved dev') : Restorable dev' := by
  refine ⟨?_, ?_, fun hactive i hi => ?_, hcredentials, ?_⟩
  · rw [loadedContext_congr (hnvs _ rfl), hctx]
    exact h.context
  · rw [hctx, hrecords]
    exact h.allocated
  · rw [loadedRecord, hnvs _ rfl, record, hrecords]
    exact h.records (hctx ▸ hactive) i hi
  · rw [hctx]
    exact h.host

/-- The start of a rotation takes effect. -/
def Starts (dev : RotationDevice) (idx : UInt8) : Prop :=
  dev.ctx.active = false ∧ idx.toNat < dev.serverCount ∧ dev.activeSlots ≠ []

instance (dev : RotationDevice) (idx : UInt8) : Decidable (dev.Starts idx) :=
  inferInstanceAs (Decidable (_ ∧ _ ∧ _))

/-- A start that does not take effect may set the active server, and one that does saves its
context. -/
theorem rotationStart_cases (idx : UInt8) (srv : SmpServer) :
    (¬ dev.Starts idx ∧ ((dev.rotationStart idx srv).1 = dev ∨
      (dev.rotationStart idx srv).1 = dev.smpServersSetActive idx)) ∨
    (dev.Starts idx ∧ (dev.rotationStart idx srv).1 = { dev with
      ctx := dev.startedContext idx srv
      records := some fun _ => .zero
      completeLogged := false
      history := .started :: dev.history }.saveContext) := by
  rw [rotationStart]
  split
  · rename_i hguard
    refine .inl ⟨fun hstarts => ?_, .inl rfl⟩
    rcases hguard with hactive | hidx
    · exact absurd (hstarts.1.symm.trans hactive) (by simp)
    · exact absurd hstarts.2.1 (by omega)
  · rename_i hguard
    rw [not_or, Bool.not_eq_true, Nat.not_le] at hguard
    split
    · rename_i hnobody
      exact .inl ⟨fun hstarts => hstarts.2.2 hnobody, .inr rfl⟩
    · rename_i hsome
      exact .inr ⟨⟨hguard.1, hguard.2, hsome⟩, rfl⟩

/-- The host of a started rotation fits its buffer. -/
theorem startedContext_host (idx : UInt8) (srv : SmpServer) :
    (cString (dev.startedContext idx srv).targetHost).length ≤ 63 := by
  change (cString (strncpy 63 (cString srv.host))).length ≤ 63
  rw [cString_strncpy 63 _ (zero_notMem_cString srv.host)]
  exact List.length_take_le ..

/-- The host of the target fits its buffer after every step. -/
theorem Restorable.step_host (h : Restorable dev) (label : RotationLabel)
    (hactive : (dev.step X label).ctx.active = true) :
    (cString (dev.step X label).ctx.targetHost).length ≤ 63 := by
  have hkept : ∀ d : RotationDevice, (∃ n, d.ctx = { dev.ctx with contactsDone := n }) →
      d.ctx.active = true → (cString d.ctx.targetHost).length ≤ 63 := by
    rintro d ⟨n, hctx⟩ hactive
    rw [hctx] at hactive ⊢
    exact h.host hactive
  have hsame : ∀ d : RotationDevice, d.ctx = dev.ctx → d.ctx.active = true →
      (cString d.ctx.targetHost).length ≤ 63 := fun d hctx => hkept d ⟨dev.ctx.contactsDone, hctx⟩
  have hmsg : ∀ {taken : Prop} {idx : ℕ} {learned d : RotationDevice}, learned.ctx = dev.ctx →
      learned.records = dev.records → MsgStep taken idx learned d → d.ctx.active = true →
        (cString d.ctx.targetHost).length ≤ 63 := by
    intro taken idx learned d hctx hrecords hs hactive
    have halloc : learned.ctx.active = true → learned.records.isSome = true := by
      rw [hctx, hrecords]
      exact h.allocated
    obtain ⟨-, _, _, -, -, ⟨-, n, hn⟩ | ⟨-, hno, -⟩⟩ := hs.writes halloc
    · exact hkept d ⟨n, by rw [hn, hctx]⟩ hactive
    · exact absurd (hno.symm.trans hactive) (by simp)
  cases label with
  | start idx srv =>
    rw [RotationDevice.step] at hactive ⊢
    rcases dev.rotationStart_cases idx srv with ⟨-, heq | heq⟩ | ⟨-, heq⟩
    · rw [heq] at hactive ⊢
      exact h.host hactive
    · rw [heq] at hactive ⊢
      exact hsame _ (smpServersSetActive_ctx idx) hactive
    · rw [heq]
      exact startedContext_host idx srv
  | appStep env =>
    rw [RotationDevice.step] at hactive ⊢
    rcases appRotationStep_worked (X := X) h.allocated env with
      ⟨-, -, hctx⟩ | ⟨d, hswitching, heq⟩
    · exact hsame _ hctx hactive
    · rw [heq] at hactive ⊢
      rcases d.rotationComplete_rotation with hno | ⟨hsamectx, -⟩
      · exact absurd (hno.symm.trans hactive) (by simp)
      · exact hsame _ (hsamectx.trans hswitching.ctx) hactive
  | contactMsg idx env => exact hmsg rfl rfl (dev.contactMsg_step X idx env) hactive
  | replyMsg idx legacy env =>
    obtain ⟨learned, hlearned, hs⟩ := dev.replyMsg_step X idx legacy env
    rcases hlearned with rfl | ⟨-, -, rfl⟩
    · exact hmsg rfl rfl hs hactive
    · exact hmsg (by rw [learnPeerKey_eq]) (by rw [learnPeerKey_eq]) hs hactive
  | addContact keys ids rqKeys rqIds =>
    refine hsame _ ?_ hactive
    rw [RotationDevice.step]
    rcases dev.addContact_cases keys ids rqKeys rqIds with heq | ⟨slot, -, -, heq⟩
    · rw [heq]
    · rw [heq, saveNewContact_eq]
  | confirm idx =>
    refine hsame _ ?_ hactive
    rw [RotationDevice.step, sendAgentConfirmation]
    split
    · split <;> rfl
    · rfl
  | abort => cases hactive
  | reboot created => exact (h.wellStored.boot created).host hactive

/-- No records of an earlier rotation are left where this one starts. -/
def StartsClean (dev : RotationDevice) : RotationLabel → Prop
  | .start idx _ => dev.Starts idx → ∀ i < maxContacts, dev.nvs (.rotC i) = none
  | _ => True

/-- A learned key leaves what can be restored. -/
theorem Restorable.learnPeerKey (h : Restorable dev) {idx : ℕ} (hidx : idx < maxContacts)
    (hvalid : (dev.replyQueues idx).valid = true) (newPeer : Option (Bytes 32)) :
    Restorable (dev.learnPeerKey idx newPeer) := by
  refine h.frame ?_ ?_ (fun key => nvs_learnPeerKey_of_rotation idx newPeer)
    (h.credentials.learnPeerKey hidx hvalid newPeer)
  · rw [learnPeerKey_eq]
  · rw [learnPeerKey_eq]

/-- So does a new contact. -/
theorem Restorable.addContact (h : Restorable dev) (keys : ContactDevice.ContactKeys)
    (ids : ContactDevice.QueueIds) (rqKeys : NewQueueKeys) (rqIds : Option NewQueueIds) :
    Restorable (dev.addContact X keys ids rqKeys rqIds) := by
  rcases dev.addContact_cases keys ids rqKeys rqIds with heq | ⟨slot, hslot, hfree, heq⟩
  · rw [heq]
    exact h
  · rw [heq]
    refine h.frame ?_ ?_ (fun key hkey => nvs_saveNewContact_of_ne slot _ _ _ ?_ ?_)
      (h.credentials.saveNewContact hslot hfree rfl _ _)
    · rw [saveNewContact_eq]
    · rw [saveNewContact_eq]
    · rintro rfl
      cases hkey
    · rintro rfl
      cases hkey

/-- An aborted rotation leaves nothing to restore of it. -/
theorem Restorable.rotationAbort (h : Restorable dev) : Restorable dev.rotationAbort := by
  have hflash : dev.rotationAbort.flash = dev.flash ++ clearedWrites := rfl
  refine ⟨?_, fun hno => (by cases hno), fun hno => (by cases hno),
    h.credentials.frame rfl rfl rfl fun key hkey => ?_, fun hno => (by cases hno)⟩
  · rw [loadedContext, nvs_cleared hflash, if_pos (mem_clearedKeys.2 (.inl rfl))]
    rfl
  · rw [nvs_cleared hflash, if_neg]
    intro hmem
    rcases mem_clearedKeys.1 hmem with rfl | ⟨i, -, rfl⟩ <;> cases hkey

/-- Every step leaves what can be restored, when a rotation finds no records where it starts. -/
theorem Restorable.step (h : Restorable dev) {label : RotationLabel}
    (hclean : dev.StartsClean label) : Restorable (dev.step X label) := by
  have hactive : dev.ctx.active = true → Restorable (dev.step X label) := fun hactive =>
    ((h.saved hactive).step label).restorable (h.step_host label)
  have hmsg : ∀ {taken : Prop} {idx : ℕ} {learned d : RotationDevice}, Restorable learned →
      learned.ctx.active = false → MsgStep taken idx learned d → Restorable d := by
    intro taken idx learned d hlearned hno hs
    cases hs with
    | same => exact hlearned
    | qkey data hyes _ => exact absurd (hno.symm.trans hyes) (by simp)
    | qtest _ hyes _ _ => exact absurd (hno.symm.trans hyes) (by simp)
  by_cases hrotation : dev.ctx.active = true
  · exact hactive hrotation
  have hno : dev.ctx.active = false := by simpa using hrotation
  cases label with
  | start idx srv =>
    by_cases hstarts : dev.Starts idx
    · exact ((h.saved_of_noRecords (hclean hstarts)).step (.start idx srv)).restorable
        (h.step_host _)
    · rw [RotationDevice.step]
      rcases dev.rotationStart_cases idx srv with ⟨-, heq | heq⟩ | ⟨hyes, -⟩
      · rw [heq]
        exact h
      · have hnvs : ∀ key : FlashKey, key ≠ .activeServer →
            (dev.smpServersSetActive idx).nvs key = dev.nvs key := by
          intro key hkey
          rw [smpServersSetActive]
          split
          · rw [nvs_write, Function.update_of_ne hkey]
            rfl
          · rfl
        rw [heq]
        refine h.frame (smpServersSetActive_ctx idx) (smpServersSetActive_records idx)
          (fun key hkey => hnvs key ?_) (h.credentials.frame (smpServersSetActive_contacts idx)
            (smpServersSetActive_replyQueues idx) (smpServersSetActive_ourQueue idx)
            fun key hkey => hnvs key ?_)
        · rintro rfl
          cases hkey
        · rintro rfl
          cases hkey
      · exact absurd hyes hstarts
  | appStep env =>
    rw [RotationDevice.step, appRotationStep, if_pos (by simp [hno])]
    exact h
  | contactMsg idx env => exact hmsg h hno (dev.contactMsg_step X idx env)
  | replyMsg idx legacy env =>
    obtain ⟨learned, hlearned, hs⟩ := dev.replyMsg_step X idx legacy env
    rcases hlearned with rfl | ⟨hidx, hvalid, rfl⟩
    · exact hmsg h hno hs
    · exact hmsg (h.learnPeerKey hidx hvalid env.newPeer) (by rw [learnPeerKey_eq]; exact hno) hs
  | addContact keys ids rqKeys rqIds => exact h.addContact keys ids rqKeys rqIds
  | confirm idx =>
    rw [RotationDevice.step, sendAgentConfirmation]
    split
    · split
      · exact h
      · exact h.frame rfl rfl (fun _ _ => rfl) (h.credentials.frame rfl rfl rfl fun _ _ => rfl)
    · exact h
  | abort => exact h.rotationAbort
  | reboot created => exact h.wellStored.boot created

/-! ### What a step writes -/

/-- A step writes safely, and may delete the rotation at last. -/
structure StepWrites (dev : RotationDevice) (body tail : List (FlashKey × Option FlashBlob)) :
    Prop where
  safe : ∀ w ∈ body, SafeWrite dev w
  ends : tail = [] ∨ tail = clearedWrites

/-- A write after records were worked on is one of those that keep the credentials before. -/
theorem KeepingWrite.of_settles {d : RotationDevice}
    (hsettles : ∀ i, (dev.record i).Settles (d.record i)) (hctx : d.ctx = dev.ctx)
    {w : FlashKey × Option FlashBlob} (h : KeepingWrite d w) : KeepingWrite dev w := by
  cases h with
  | record i rd hrd => exact .record i rd ((hsettles i).trans hrd)
  | counted n hactive =>
    rw [hctx]
    exact .counted n (hctx ▸ hactive)
  | other key blob hrotation hcredentials => exact .other key blob hrotation hcredentials

/-- The live switch stores the contacts as they are in use. -/
theorem contactWrites_safe {d : RotationDevice} (hin : ∀ i, d.inUse i = dev.inUse i)
    {w : FlashKey × Option FlashBlob} (hw : w ∈ d.contactWrites) : SafeWrite dev w := by
  obtain ⟨i, -, rfl⟩ := List.mem_map.1 hw
  cases hactive : (d.contacts i).isActive with
  | true => exact .contact i _ (by rw [← hin i, inUse, hactive]) hactive
  | false => exact .free i (by rw [← hin i, inUse, hactive])

/-- And the reply queues of contacts in use. -/
theorem replyQueueWrites_safe {d : RotationDevice} (hin : ∀ i, d.inUse i = dev.inUse i)
    {w : FlashKey × Option FlashBlob} (hw : w ∈ d.replyQueueWrites) : SafeWrite dev w := by
  obtain ⟨i, hi, rfl⟩ := List.mem_map.1 hw
  rw [mem_migratedSlots, migrates_iff] at hi
  exact .replyQueue i _ (by rw [← hin i]; exact hi.2.1)

/-- The writes of a pass that makes the live switch: what keeps the credentials, the contacts,
their reply queues, our queue, and the rotation at last. -/
theorem Switching.writes {d : RotationDevice} (h : Switching dev d) :
    ∃ before after tail, (∀ w ∈ before, KeepingWrite dev w) ∧ (∀ w ∈ after, KeepingWrite dev w) ∧
      ((tail = [] ∧ d.rotationComplete.ctx = dev.ctx) ∨
        (tail = clearedWrites ∧ d.rotationComplete.ctx.active = false)) ∧
      d.rotationComplete.flash = dev.flash ++ (before ++
        (d.migrateCredentials.contactWrites ++ (d.migrateCredentials.replyQueueWrites ++
          ((.queueOur, some (.ourQueue d.switched.ourQueue)) :: (after ++ tail))))) := by
  obtain ⟨marks, hmarks, hflash⟩ := h.worked.writes
  obtain ⟨before, after, tail, hbefore, hafter, htail, heq⟩ :=
    d.rotationComplete_writes (h.ctx.symm ▸ h.active)
  have hkeeping : ∀ w, KeepingWrite d w → KeepingWrite dev w := fun w hw =>
    hw.of_settles h.worked.settles h.ctx
  refine ⟨marks ++ before, after, tail, fun w hw => ?_, fun w hw => hkeeping w (hafter w hw),
    ?_, ?_⟩
  · rcases List.mem_append.1 hw with hw | hw
    · exact hmarks w hw
    · exact hkeeping w (hbefore w hw)
  · rw [← h.ctx]
    exact htail
  · rw [heq, hflash, List.append_assoc, List.append_assoc]

/-- The writes of every step but the addition of a contact. -/
theorem Restorable.step_writes (h : Restorable dev) (label : RotationLabel)
    (hadd : ∀ keys ids rqKeys rqIds, label ≠ .addContact keys ids rqKeys rqIds) :
    ∃ body tail, StepWrites dev body tail ∧
      (dev.step X label).flash = dev.flash ++ (body ++ tail) := by
  have hnothing : ∀ d : RotationDevice, d.flash = dev.flash →
      ∃ body tail, StepWrites dev body tail ∧ d.flash = dev.flash ++ (body ++ tail) := fun d hd =>
    ⟨[], [], ⟨by simp, .inl rfl⟩, by simp [hd]⟩
  have hmsg : ∀ {taken : Prop} {idx : ℕ} {d : RotationDevice}, MsgStep taken idx dev d →
      ∃ body tail, StepWrites dev body tail ∧ d.flash = dev.flash ++ (body ++ tail) := by
    intro taken idx d hs
    obtain ⟨-, body, tail, hbody, hflash, htail⟩ := hs.writes h.allocated
    exact ⟨body, tail, ⟨fun w hw => (hbody w hw).safe h.host, htail.imp And.left And.left⟩, hflash⟩
  cases label with
  | start idx srv =>
    rw [RotationDevice.step]
    rcases dev.rotationStart_cases idx srv with ⟨-, heq | heq⟩ | ⟨-, heq⟩
    · exact hnothing _ (by rw [heq])
    · rw [heq, smpServersSetActive]
      split
      · exact ⟨[_], [], ⟨fun w hw => by rw [List.mem_singleton.1 hw]; exact .other _ _ rfl rfl,
          .inl rfl⟩, rfl⟩
      · exact hnothing _ rfl
    · rw [heq]
      refine ⟨[_], [], ⟨fun w hw => ?_, .inl rfl⟩, rfl⟩
      rw [List.mem_singleton.1 hw]
      exact .context _ (startedContext_host idx srv)
  | appStep env =>
    rw [RotationDevice.step]
    rcases appRotationStep_worked (X := X) h.allocated env with
      ⟨hworked, -, -⟩ | ⟨d, hswitching, heq⟩
    · obtain ⟨body, hbody, hflash⟩ := hworked.writes
      exact ⟨body, [], ⟨fun w hw => (hbody w hw).safe h.host, .inl rfl⟩, by simpa using hflash⟩
    · obtain ⟨before, after, tail, hbefore, hafter, htail, hflash⟩ := hswitching.writes
      have hin : ∀ i, d.migrateCredentials.inUse i = dev.inUse i := by
        intro i
        rw [inUse, migrateCredentials_isActive, hswitching.same.contacts, inUse]
      have hour : d.switched.ourQueue.valid = true := by
        obtain ⟨_, _, hswitched⟩ := d.switched_ourQueue
        rw [hswitched, hswitching.same.ourQueue]
        exact h.credentials.ourValid
      refine ⟨before ++ (d.migrateCredentials.contactWrites ++
        (d.migrateCredentials.replyQueueWrites ++
          ((.queueOur, some (.ourQueue d.switched.ourQueue)) :: after))), tail,
        ⟨fun w hw => ?_, htail.imp And.left And.left⟩, ?_⟩
      · simp only [List.mem_append, List.mem_cons] at hw
        rcases hw with hw | hw | hw | rfl | hw
        · exact (hbefore w hw).safe h.host
        · exact contactWrites_safe hin hw
        · exact replyQueueWrites_safe hin hw
        · exact .ourQueue _ hour
        · exact (hafter w hw).safe h.host
      · rw [heq, hflash]
        simp only [List.append_assoc, List.cons_append]
  | contactMsg idx env => exact hmsg (dev.contactMsg_step X idx env)
  | replyMsg idx legacy env =>
    obtain ⟨learned, hlearned, hs⟩ := dev.replyMsg_step X idx legacy env
    rcases hlearned with rfl | ⟨hidx, hvalid, rfl⟩
    · exact hmsg hs
    · have hctx : (dev.learnPeerKey idx env.newPeer).ctx = dev.ctx := by rw [learnPeerKey_eq]
      have hrecords : (dev.learnPeerKey idx env.newPeer).records = dev.records := by
        rw [learnPeerKey_eq]
      have hin : dev.inUse idx = true := by
        by_contra hno
        rw [Bool.not_eq_true] at hno
        exact absurd (hvalid.symm.trans (h.credentials.freeQueues idx hidx hno)) (by simp)
      obtain ⟨-, body, tail, hbody, hflash, htail⟩ :=
        hs.writes (by rw [hctx, hrecords]; exact h.allocated)
      have hsafe : ∀ w ∈ body, SafeWrite dev w := fun w hw =>
        ((hbody w hw).of_settles (fun j => by rw [record, record, hrecords]; exact .refl _)
          hctx).safe h.host
      rcases dev.learnPeerKey_flash idx env.newPeer with hlearn | hlearn
      · exact ⟨body, tail, ⟨hsafe, htail.imp And.left And.left⟩, by rw [← hlearn]; exact hflash⟩
      · refine ⟨(.rq idx, some (.replyQueue
          ((dev.learnPeerKey idx env.newPeer).replyQueues idx))) :: body, tail,
          ⟨fun w hw => ?_, htail.imp And.left And.left⟩, ?_⟩
        · rcases List.mem_cons.1 hw with rfl | hw
          · exact .replyQueue idx _ hin
          · exact hsafe w hw
        · exact hflash.trans (by rw [hlearn, List.append_assoc]; rfl)
  | addContact keys ids rqKeys rqIds => exact absurd rfl (hadd keys ids rqKeys rqIds)
  | confirm idx =>
    refine hnothing _ ?_
    rw [RotationDevice.step, sendAgentConfirmation]
    split
    · split <;> rfl
    · rfl
  | abort => exact ⟨[], clearedWrites, ⟨by simp, .inr rfl⟩, rfl⟩
  | reboot created => exact hnothing _ (boot_flash created)

/-! ### A cut between two writes -/

/-- NVS after a step that was cut: the contacts are there, and a rotation that is resumed has
its records. -/
structure CutStored (dev : RotationDevice) (nvs : Store FlashKey FlashBlob) : Prop where
  stored : ∃ slots : ℕ → Bool, (∀ i < maxContacts, dev.inUse i = true → slots i = true) ∧
    WellStored slots nvs
  records : dev.ctx.active = true → (loadedContext nvs).isSome = true → ∀ i < maxContacts,
    (dev.record i).Settles (loadedRecord nvs i)

/-- The deletions of a rotation begin with its context. -/
theorem applyAll_cleared_rotCtx (s : Store FlashKey FlashBlob)
    {q : List (FlashKey × Option FlashBlob)} (hq : q <+: clearedWrites) (hne : q ≠ []) :
    s.applyAll q .rotCtx = none := by
  rcases Store.applyAll_eq_or s q .rotCtx with ⟨-, hno⟩ | h
  · -- the first deletion is that of the context
    obtain ⟨w, q, rfl⟩ := List.exists_cons_of_ne_nil hne
    rw [clearedWrites, clearedKeys, List.map_cons, List.cons_prefix_cons] at hq
    exact absurd (by rw [hq.1]; exact List.mem_cons_self) hno
  · obtain ⟨key, -, hw⟩ := List.mem_map.1 (hq.subset h)
    exact (congrArg Prod.snd hw).symm

/-- They leave everything else. -/
theorem applyAll_cleared_of_ne (s : Store FlashKey FlashBlob)
    {q : List (FlashKey × Option FlashBlob)} (hq : q <+: clearedWrites) {key : FlashKey}
    (hkey : key.ofRotation = false) : s.applyAll q key = s key := by
  refine Store.applyAll_of_forall_ne _ _ _ fun w hw hsame => ?_
  obtain ⟨cleared, hmem, rfl⟩ := List.mem_map.1 (hq.subset hw)
  subst hsame
  rcases mem_clearedKeys.1 hmem with rfl | ⟨i, -, rfl⟩ <;> cases hkey

/-- A prefix of the writes of a step that may end a rotation. -/
theorem prefix_body_or_cleared {body tail p : List (FlashKey × Option FlashBlob)}
    (htail : tail = [] ∨ tail = clearedWrites) (hp : p <+: body ++ tail) :
    p <+: body ∨ ∃ q, q <+: clearedWrites ∧ q ≠ [] ∧ p = body ++ q := by
  rcases Store.prefix_append_cases hp with hbody | ⟨q, hq, rfl⟩
  · exact .inl hbody
  · by_cases hne : q = []
    · subst hne
      rw [List.append_nil]
      exact .inl (List.prefix_refl body)
    · rcases htail with rfl | rfl
      · exact absurd (List.prefix_nil.1 hq) hne
      · exact .inr ⟨q, hq, hne, rfl⟩

/-- The records after writes that are safe. -/
theorem Restorable.records_of_safe (h : Restorable dev) (hactive : dev.ctx.active = true)
    {p : List (FlashKey × Option FlashBlob)} (hp : ∀ w ∈ p, SafeWrite dev w) {i : ℕ}
    (hi : i < maxContacts) : (dev.record i).Settles (loadedRecord (dev.nvs.applyAll p) i) := by
  rcases Store.applyAll_eq_or dev.nvs p (.rotC i) with ⟨hkey, -⟩ | hkey
  · have hsame : loadedRecord (dev.nvs.applyAll p) i = loadedRecord dev.nvs i := by
      rw [loadedRecord, hkey, loadedRecord]
    rw [hsame]
    exact (h.records hactive i hi).settles
  · generalize hblob : dev.nvs.applyAll p (.rotC i) = blob at hkey
    have hsafe := hp _ hkey
    cases hsafe with
    | record _ rd hrd =>
      rw [loadedRecord_of_some hi hblob]
      exact hrd
    | other _ _ hrotation _ => cases hrotation

/-- A step that was cut leaves NVS stored well. -/
theorem StepWrites.cutStored {body tail p : List (FlashKey × Option FlashBlob)}
    (hwrites : StepWrites dev body tail) (h : Restorable dev) (hp : p <+: body ++ tail) :
    CutStored dev (dev.nvs.applyAll p) := by
  rcases prefix_body_or_cleared hwrites.ends hp with hbody | ⟨q, hq, hne, rfl⟩
  · have hsafe : ∀ w ∈ p, SafeWrite dev w := fun w hw => hwrites.safe w (hbody.subset hw)
    exact ⟨⟨dev.inUse, fun _ _ h => h, h.wellStored.applyAll fun w hw => .inl (hsafe w hw)⟩,
      fun hactive _ i hi => h.records_of_safe hactive hsafe hi⟩
  · refine ⟨⟨dev.inUse, fun _ _ h => h, h.wellStored.applyAll fun w hw => ?_⟩, fun _ hsome => ?_⟩
    · rcases List.mem_append.1 hw with hw | hw
      · exact .inl (hwrites.safe w hw)
      · obtain ⟨key, hkey, rfl⟩ := List.mem_map.1 (hq.subset hw)
        exact .inr ⟨key, hkey, rfl⟩
    · rw [loadedContext, Store.applyAll_append, applyAll_cleared_rotCtx _ hq hne] at hsome
      cases hsome

/-- One more slot in use. -/
theorem WellStored.addSlot {slots : ℕ → Bool} {nvs : Store FlashKey FlashBlob}
    (h : WellStored slots nvs) (slot : ℕ) {c : Contact} (hc : c.isActive = true) :
    WellStored (Function.update slots slot true)
      (Function.update nvs (.cnt slot) (some (.contact c))) := by
  refine ⟨fun i hi hin => ?_, fun i hi hin => ?_, ?_, fun ctx hctx => h.host ctx ?_⟩
  · by_cases hsame : i = slot
    · subst hsame
      exact ⟨c, hc, Function.update_self ..⟩
    · rw [Function.update_of_ne hsame] at hin
      rw [Function.update_of_ne (by simpa using hsame)]
      exact h.contacts i hi hin
  · by_cases hsame : i = slot
    · subst hsame
      rw [Function.update_self] at hin
      cases hin
    · rw [Function.update_of_ne hsame] at hin
      rw [loadedReplyQueue_congr (Function.update_of_ne (by simp) ..),
        Function.update_of_ne (by simpa using hsame)]
      exact h.free i hi hin
  · rw [Function.update_of_ne (by simp)]
    exact h.ourQueue
  · rwa [loadedContext_congr (Function.update_of_ne (by simp) ..)] at hctx

/-- The slots in use with a new contact. -/
theorem inUse_update (slot : ℕ) {c : Contact} (hc : c.isActive = true) :
    RotationDevice.inUse { dev with contacts := Function.update dev.contacts slot c } =
      Function.update dev.inUse slot true := by
  funext i
  rw [inUse]
  dsimp only
  by_cases hsame : i = slot
  · subst hsame
    rw [Function.update_self, Function.update_self, hc]
  · rw [Function.update_of_ne hsame, Function.update_of_ne hsame, inUse]

/-- The save of a new contact: the contact, then its reply queue. -/
theorem saveNewContact_flash (dev : RotationDevice) (slot : ℕ) :
    ∃ rest : List (FlashKey × Option FlashBlob),
    (rest = [] ∨ rest = [(.rq slot, some (.replyQueue (dev.replyQueues slot)))]) ∧
      (dev.saveNewContact slot).flash =
        dev.flash ++ ((.cnt slot, some (.contact (dev.contacts slot))) :: rest) := by
  rw [saveNewContact]
  split
  · exact ⟨_, .inr rfl, by simp [write]⟩
  · exact ⟨[], .inl rfl, by simp [write]⟩

/-- The writes of a new contact. -/
theorem addContact_writes (X : Sodium) (dev : RotationDevice)
    (keys : ContactDevice.ContactKeys) (ids : ContactDevice.QueueIds)
    (rqKeys : NewQueueKeys) (rqIds : Option NewQueueIds) :
    (dev.addContact X keys ids rqKeys rqIds).flash = dev.flash ∨
      ∃ slot c rest, dev.inUse slot = false ∧ c.isActive = true ∧
        (rest = [] ∨ ∃ q, rest = [((.rq slot : FlashKey), some (FlashBlob.replyQueue q))]) ∧
        (dev.addContact X keys ids rqKeys rqIds).flash =
          dev.flash ++ ((.cnt slot, some (.contact c)) :: rest) := by
  rcases dev.addContact_cases keys ids rqKeys rqIds with heq | ⟨slot, -, hfree, heq⟩
  · rw [heq]
    exact .inl rfl
  · rw [heq]
    obtain ⟨rest, hrest, hflash⟩ := saveNewContact_flash { dev with
      contacts := Function.update dev.contacts slot (ContactDevice.createdContact keys ids)
      replyQueues := Function.update dev.replyQueues slot (createdReplyQueue X rqKeys rqIds)
      history := .added slot :: dev.history } slot
    refine .inr ⟨slot, _, rest, hfree, ?_, hrest.imp id fun h => ⟨_, h⟩, hflash⟩
    dsimp only
    rw [Function.update_self]
    rfl

/-- Every step that was cut leaves NVS stored well. -/
theorem Restorable.cutStored (h : Restorable dev) (label : RotationLabel)
    {writes p : List (FlashKey × Option FlashBlob)}
    (hflash : (dev.step X label).flash = dev.flash ++ writes) (hp : p <+: writes) :
    CutStored dev (dev.nvs.applyAll p) := by
  by_cases hadd : ∀ keys ids rqKeys rqIds, label ≠ .addContact keys ids rqKeys rqIds
  · obtain ⟨body, tail, hwrites, heq⟩ := h.step_writes label hadd
    obtain rfl := List.append_cancel_left (hflash.symm.trans heq)
    exact hwrites.cutStored h hp
  · simp only [not_forall, not_not] at hadd
    obtain ⟨keys, ids, rqKeys, rqIds, rfl⟩ := hadd
    have hnone : CutStored dev dev.nvs := ⟨⟨dev.inUse, fun _ _ h => h, h.wellStored⟩,
      fun hactive _ i hi => (h.records hactive i hi).settles⟩
    rcases addContact_writes X dev keys ids rqKeys rqIds with
      heq | ⟨slot, c, rest, hfree, hc, hrest, heq⟩
    · obtain rfl : writes = [] := by
        have hboth := hflash.symm.trans heq
        simpa using hboth
      rw [List.prefix_nil.1 hp]
      exact hnone
    · obtain rfl := List.append_cancel_left (hflash.symm.trans heq)
      rcases List.prefix_cons_iff.1 hp with rfl | ⟨q, rfl, hq⟩
      · exact hnone
      · have hother : ∀ key : FlashKey, key.ofRotation = true →
            dev.nvs.applyAll ((.cnt slot, some (.contact c)) :: q) key = dev.nvs key := by
          intro key hkey
          refine Store.applyAll_of_forall_ne _ _ _ fun w hw hsame => ?_
          subst hsame
          rcases List.mem_cons.1 hw with rfl | hw
          · cases hkey
          · rcases hrest with rfl | ⟨rq, rfl⟩
            · exact absurd (hq.subset hw) (by simp)
            · rw [List.mem_singleton.1 (hq.subset hw)] at hkey
              cases hkey
        refine ⟨⟨Function.update dev.inUse slot true, fun i _ hin => ?_, ?_⟩,
          fun hactive _ i hi => ?_⟩
        · by_cases hsame : i = slot
          · subst hsame
            exact Function.update_self ..
          · rw [Function.update_of_ne hsame]
            exact hin
        · have hslot := h.wellStored.addSlot slot hc
          rw [Store.applyAll_cons]
          rw [← dev.inUse_update slot hc] at hslot ⊢
          refine hslot.applyAll fun w hw => .inl ?_
          rcases hrest with rfl | ⟨rq, rfl⟩
          · exact absurd (hq.subset hw) (by simp)
          · rw [List.mem_singleton.1 (hq.subset hw)]
            refine .replyQueue slot rq ?_
            rw [inUse_update slot hc, Function.update_self]
        · rw [loadedRecord, hother _ rfl]
          exact (h.records hactive i hi).settles

/-- A step adds to the writes. -/
theorem Restorable.step_flash (h : Restorable dev) (label : RotationLabel) :
    ∃ writes, (dev.step X label).flash = dev.flash ++ writes := by
  by_cases hadd : ∀ keys ids rqKeys rqIds, label ≠ .addContact keys ids rqKeys rqIds
  · obtain ⟨body, tail, -, heq⟩ := h.step_writes label hadd
    exact ⟨_, heq⟩
  · simp only [not_forall, not_not] at hadd
    obtain ⟨keys, ids, rqKeys, rqIds, rfl⟩ := hadd
    rcases addContact_writes X dev keys ids rqKeys rqIds with
      heq | ⟨slot, c, rest, -, -, -, heq⟩
    · exact ⟨[], heq.trans (List.append_nil _).symm⟩
    · exact ⟨_, heq⟩

end RotationDevice

end SimpleGo
