import SimpleGo.Rotation.MessageLoss
import SimpleGo.Rotation.PowerLoss

/-!
# A rotation after a power loss

A contact heads for certain credentials: those it has, or those the live switch will give it.
Every step keeps where a contact is heading, and a power loss between two writes should keep
it as well, so that the rotation ends with the same credentials as the uninterrupted run. The
live switch writes the contacts before their reply queues, and a reply queue keeps the peer's
DH keys aside only as it is moved; the second run then keeps the wrong ones.
-/

namespace SimpleGo

open Lib

/-! ### Moved credentials -/

/-- A reply queue, but for the E2E key learned from the peer's messages. -/
def ReplyQueue.withoutPeerKey (q : ReplyQueue) : ReplyQueue :=
  { q with e2ePeerPublic := zeroBytes 32, e2ePeerValid := false }

/-- The credentials of a contact after the live switch. -/
def moveCredentials (held : Contact × ReplyQueue) (rd : RotationContactData) :
    Contact × ReplyQueue := (held.1.migrate rd, held.2.migrate held.1 rd)

/-- An id that is copied twice. -/
theorem copyId_copyId (dst src : Bytes 24) (len : ℕ) :
    copyId (copyId dst src len) src len = copyId dst src len := by
  ext i hi
  simp only [copyId, Fin.getElem_fin, Vector.getElem_ofFn]
  split <;> rfl

/-- A contact that is moved twice. -/
theorem Contact.migrate_migrate (c : Contact) (rd : RotationContactData) :
    (c.migrate rd).migrate rd = c.migrate rd := by
  simp only [Contact.migrate, copyId_copyId]

/-- A reply queue that keeps the peer's DH keys already is moved the same with the moved
contact. -/
theorem ReplyQueue.migrate_of_hasPeerDh {q : ReplyQueue} (h : q.hasPeerDh = true) (c c' : Contact)
    (rd : RotationContactData) : q.migrate c rd = q.migrate c' rd := by
  simp only [ReplyQueue.migrate, h, if_true]

/-- A reply queue that is moved twice. -/
theorem ReplyQueue.migrate_migrate (q : ReplyQueue) (c c' : Contact) (rd : RotationContactData) :
    (q.migrate c rd).migrate c' rd = q.migrate c rd := by
  simp only [ReplyQueue.migrate, if_true, copyId_copyId]

/-- Credentials that are moved twice. -/
theorem moveCredentials_moved (held : Contact × ReplyQueue) (rd : RotationContactData) :
    moveCredentials (moveCredentials held rd) rd = moveCredentials held rd := by
  rw [moveCredentials, moveCredentials, Contact.migrate_migrate, ReplyQueue.migrate_migrate]

/-- Credentials of which the contact alone was moved, when the peer's DH keys are kept already. -/
theorem moveCredentials_half {c : Contact} {q : ReplyQueue} (h : q.hasPeerDh = true)
    (rd : RotationContactData) : moveCredentials (c.migrate rd, q) rd = moveCredentials (c, q) rd := by
  rw [moveCredentials, moveCredentials, Contact.migrate_migrate,
    ReplyQueue.migrate_of_hasPeerDh h (c.migrate rd) c]

/-- A moved contact depends on the new main queue. -/
theorem Contact.migrate_congr {rd rd' : RotationContactData} (hmain : rd'.main = rd.main)
    (c : Contact) : c.migrate rd' = c.migrate rd := by
  simp only [Contact.migrate, hmain]

/-- A moved reply queue depends on both new queues. -/
theorem ReplyQueue.migrate_congr {rd rd' : RotationContactData} (hmain : rd'.main = rd.main)
    (hrq : rd'.rq = rd.rq) (q : ReplyQueue) (c : Contact) : q.migrate c rd' = q.migrate c rd := by
  simp only [ReplyQueue.migrate, hmain, hrq]

/-- Moved credentials depend on the new queues. -/
theorem moveCredentials_congr {rd rd' : RotationContactData} (hmain : rd'.main = rd.main)
    (hrq : rd'.rq = rd.rq) (held : Contact × ReplyQueue) :
    moveCredentials held rd' = moveCredentials held rd := by
  rw [moveCredentials, moveCredentials, Contact.migrate_congr hmain,
    ReplyQueue.migrate_congr hmain hrq]

namespace RotationDevice

/-- The credentials of a slot. -/
def credentials (dev : RotationDevice) (i : ℕ) : Contact × ReplyQueue :=
  (dev.contacts i, (dev.replyQueues i).withoutPeerKey)

/-- Where credentials head for: until our queues are on the target, for the new queues. -/
def headingOf (ctx : RotationContext) (ourQueue : OurQueue) (held : Contact × ReplyQueue)
    (rd : RotationContactData) : Contact × ReplyQueue :=
  if ctx.active && !(cString ourQueue.serverHost == cString ctx.targetHost) then
    moveCredentials held rd
  else held

/-- Where a contact heads for, with the new queues of a record. -/
def heading (dev : RotationDevice) (rd : RotationContactData) (i : ℕ) : Contact × ReplyQueue :=
  headingOf dev.ctx dev.ourQueue (dev.credentials i) rd

/-- No live switch is to come: the rotation is over, or our queues are on the target server. -/
def Settled (dev : RotationDevice) : Prop := dev.ctx.active = false ∨ dev.onTarget = true

instance (dev : RotationDevice) : Decidable dev.Settled := inferInstanceAs (Decidable (_ ∨ _))

variable {X : Sodium} {dev dev' : RotationDevice} {rd : RotationContactData} {i : ℕ}

/-- A device that is settled has what it heads for. -/
theorem Settled.heading (h : dev.Settled) : dev.heading rd i = dev.credentials i := by
  rw [RotationDevice.heading, headingOf, if_neg]
  rw [Settled, onTarget] at h
  rcases h with h | h <;> simp [h]

/-- Before the live switch a contact heads for the new queues. -/
theorem heading_of_elsewhere (hactive : dev.ctx.active = true) (h : dev.onTarget = false) :
    dev.heading rd i = moveCredentials (dev.credentials i) rd := by
  rw [onTarget] at h
  rw [heading, headingOf, if_pos (by simp [hactive, h])]

/-- The heading depends on the target, our host and the credentials. -/
theorem heading_congr (hactive : dev'.ctx.active = dev.ctx.active)
    (htarget : dev.ctx.active = true → dev'.ctx.targetHost = dev.ctx.targetHost)
    (hour : dev'.ourQueue.serverHost = dev.ourQueue.serverHost)
    (hheld : dev'.credentials i = dev.credentials i) : dev'.heading rd i = dev.heading rd i := by
  rw [heading, heading, headingOf, headingOf, hactive, hour, hheld]
  cases hrotation : dev.ctx.active with
  | false => rfl
  | true => rw [htarget hrotation]

/-- The same credentials, held and moved. -/
theorem SameCredentials.credentials (h : SameCredentials dev dev') (i : ℕ) :
    dev'.credentials i = dev.credentials i := by
  rw [RotationDevice.credentials, RotationDevice.credentials, h.contacts, h.replyQueues]

/-- The moved credentials of a contact that the live switch takes. -/
theorem rotationComplete_credentials (h : dev.migrates i = true) :
    dev.rotationComplete.credentials i = moveCredentials (dev.credentials i) (dev.record i) := by
  rw [credentials, rotationComplete_contacts, rotationComplete_replyQueues,
    migrateCredentials_contacts h, migrateCredentials_replyQueues h]
  rfl

/-! ### Steps keep the heading -/

/-- The reply queues of the contacts in use were made, or there is none in RAM either. -/
def QueuesMade (dev : RotationDevice) : Prop := ∀ i < maxContacts, dev.inUse i = true →
  (dev.replyQueues i).valid = true ∨ dev.replyQueues i = .zero

instance (dev : RotationDevice) : Decidable dev.QueuesMade :=
  inferInstanceAs (Decidable (∀ i < maxContacts, _))

/-- What a step may find: no old records where a rotation starts, the live switch made where the
last QTEST is taken, and made reply queues where the device restarts. -/
structure Tolerable (X : Sodium) (dev : RotationDevice) (label : RotationLabel) : Prop where
  clean : dev.StartsClean label
  qtest : ∀ idx, dev.takenQtest X label = some idx → dev.othersQtestDone idx → dev.onTarget = true
  made : (∃ created, label = .reboot created) → dev.QueuesMade

instance (dev : RotationDevice) : ∀ label, Decidable (dev.StartsClean label)
  | .start idx _ => inferInstanceAs (Decidable (dev.Starts idx → ∀ i < maxContacts, _))
  | .appStep _ | .contactMsg _ _ | .replyMsg _ _ _ | .addContact _ _ _ _ | .confirm _ | .abort
  | .reboot _ => isTrue trivial

/-- Whether a step may be made can be computed. -/
instance (X : Sodium) (dev : RotationDevice) (label : RotationLabel) :
    Decidable (Tolerable X dev label) :=
  have qtest : Decidable (∀ idx, dev.takenQtest X label = some idx → dev.othersQtestDone idx →
      dev.onTarget = true) :=
    match htaken : dev.takenQtest X label with
    | none => isTrue fun _ h => by cases h
    | some idx => decidable_of_iff (dev.othersQtestDone idx → dev.onTarget = true)
      ⟨fun h _ heq => Option.some.inj heq ▸ h, fun h => h idx rfl⟩
  have made : Decidable ((∃ created, label = .reboot created) → dev.QueuesMade) :=
    match label with
    | .reboot created => decidable_of_iff dev.QueuesMade ⟨fun h _ => h, fun h => h ⟨created, rfl⟩⟩
    | .start _ _ | .appStep _ | .contactMsg _ _ | .replyMsg _ _ _ | .addContact _ _ _ _ | .confirm _
    | .abort => isTrue fun ⟨_, h⟩ => by cases h
  decidable_of_iff (dev.StartsClean label ∧
    (∀ idx, dev.takenQtest X label = some idx → dev.othersQtestDone idx → dev.onTarget = true) ∧
      ((∃ created, label = .reboot created) → dev.QueuesMade))
    ⟨fun h => ⟨h.1, h.2.1, h.2.2⟩, fun h => ⟨h.clean, h.qtest, h.made⟩⟩

/-- A step of a rotation that is left to finish. -/
def Finishing : RotationLabel → Bool
  | .start _ _ | .abort => false
  | _ => true

/-- A contact in use is stored. -/
theorem Restorable.stored_contact (h : Restorable dev) (hi : i < maxContacts)
    (hin : dev.inUse i = true) : loadedContact dev.nvs i = dev.contacts i :=
  loadedContact_of_some hi ((h.credentials.contacts i hi).trans (if_pos hin))

/-- So is its reply queue, if it was made. -/
theorem Restorable.stored_replyQueue (h : Restorable dev) (hmade : dev.QueuesMade)
    (hi : i < maxContacts) (hin : dev.inUse i = true) :
    loadedReplyQueue dev.nvs i = dev.replyQueues i := by
  rw [h.credentials.replyQueues i hi]
  rcases hmade i hi hin with hvalid | hzero
  · exact if_pos hvalid
  · rw [hzero]
    rfl

/-- The credentials after a start-up from what is stored for the slot. -/
theorem Restorable.boot_credentials (h : Restorable dev) (hmade : dev.QueuesMade)
    (hi : i < maxContacts) (hin : dev.inUse i = true) {e : RotationDevice} (created : OurQueue)
    (hcnt : e.nvs (.cnt i) = dev.nvs (.cnt i)) (hrq : e.nvs (.rq i) = dev.nvs (.rq i)) :
    (e.boot created).credentials i = dev.credentials i := by
  have hcontact : loadedContact e.nvs i = loadedContact dev.nvs i := by
    rw [loadedContact, hcnt, loadedContact]
  rw [RotationDevice.credentials, boot_contacts, boot_replyQueues, hcontact,
    loadedReplyQueue_congr hrq, h.stored_contact hi hin, h.stored_replyQueue hmade hi hin,
    RotationDevice.credentials]

/-- Our queue after a start-up from what is stored for it. -/
theorem Restorable.boot_ourQueue (h : Restorable dev) {e : RotationDevice} (created : OurQueue)
    (hour : e.nvs .queueOur = dev.nvs .queueOur) : (e.boot created).ourQueue = dev.ourQueue := by
  rw [RotationDevice.boot_ourQueue, loadedOurQueue, hour, h.credentials.ourQueue]
  exact if_pos h.credentials.ourValid

/-- The entry of the context is that of the same rotation. -/
def SameRotation (dev : RotationDevice) (nvs : Store FlashKey FlashBlob) : Prop :=
  nvs .rotCtx = dev.nvs .rotCtx ∨ (dev.ctx.active = true ∧
    ∃ n, nvs .rotCtx = some (.context { dev.ctx with contactsDone := n }))

/-- The context after a start-up from it. -/
theorem SameRotation.boot_ctx (hsame : SameRotation dev dev'.nvs) (h : Restorable dev)
    (created : OurQueue) : (dev'.boot created).ctx.active = dev.ctx.active ∧
      (dev.ctx.active = true → (dev'.boot created).ctx.targetHost = dev.ctx.targetHost) := by
  rw [RotationDevice.boot_ctx]
  rcases hsame with hsame | ⟨hactive, n, hstored⟩
  · rw [loadedContext_congr hsame, h.context]
    cases hactive : dev.ctx.active with
    | true => exact ⟨hactive, fun _ => rfl⟩
    | false => exact ⟨rfl, fun hno => by cases hno⟩
  · have hloaded : loadedContext dev'.nvs = some { dev.ctx with contactsDone := n } := by
      rw [loadedContext, hstored]
      exact if_pos hactive
    rw [hloaded]
    exact ⟨rfl, fun _ => rfl⟩

/-- A start-up keeps the heading. -/
theorem Restorable.boot_heading (h : Restorable dev) (hmade : dev.QueuesMade)
    (hi : i < maxContacts) (hin : dev.inUse i = true) {e : RotationDevice} (created : OurQueue)
    (hctx : SameRotation dev e.nvs) (hcnt : e.nvs (.cnt i) = dev.nvs (.cnt i))
    (hrq : e.nvs (.rq i) = dev.nvs (.rq i)) (hour : e.nvs .queueOur = dev.nvs .queueOur) :
    (e.boot created).heading rd i = dev.heading rd i := by
  obtain ⟨hactive, htarget⟩ := hctx.boot_ctx h created
  exact heading_congr hactive htarget (by rw [h.boot_ourQueue created hour])
    (h.boot_credentials hmade hi hin created hcnt hrq)

/-- The live switch gives a contact what it heads for. -/
theorem Switching.heading (h : Switching dev dev') (hrestorable : Restorable dev)
    (hi : i < maxContacts) (hin : dev.inUse i = true)
    (hrd : (dev.record i).main = rd.main ∧ (dev.record i).rq = rd.rq) :
    dev'.rotationComplete.heading rd i = dev.heading rd i := by
  have hslot : i ∈ dev.activeSlots := mem_activeSlots.2 ⟨hi, hin⟩
  obtain ⟨-, hmain, hrq⟩ := h.worked.settles i (h.queues i hslot)
  have hheld : dev'.rotationComplete.credentials i = moveCredentials (dev.credentials i) rd := by
    rw [rotationComplete_credentials (h.moved i hslot), h.same.credentials,
      moveCredentials_congr (hmain.trans hrd.1) (hrq.trans hrd.2)]
  have hsettled : dev'.rotationComplete.Settled := by
    rcases dev'.rotationComplete_rotation with hno | ⟨hctx, -⟩
    · exact .inl hno
    · obtain ⟨_, _, hour⟩ := dev'.switched_ourQueue
      refine .inr ?_
      rw [onTarget, rotationComplete_ourQueue, hour, hctx, h.ctx,
        cString_strncpy_host _ (hrestorable.host h.active), beq_self_eq_true]
  rw [hsettled.heading, hheld, heading_of_elsewhere h.active h.elsewhere]

/-- A message keeps the heading. -/
theorem MsgStep.heading {taken : Prop} {idx : ℕ} (hs : MsgStep taken idx dev dev')
    (hrecords : dev.ctx.active = true → dev.records.isSome = true)
    (hqtest : taken → dev.othersQtestDone idx → dev.onTarget = true) :
    dev'.heading rd i = dev.heading rd i := by
  have hsame := SameCredentials.msgStep hrecords hs
  obtain ⟨-, _, _, -, -, ⟨-, n, hctx⟩ | ⟨-, hno, -, htaken, hlast⟩⟩ := hs.writes hrecords
  · exact heading_congr (by rw [hctx]) (fun _ => by rw [hctx]) (by rw [hsame.ourQueue])
      (hsame.credentials i)
  · have hsettled : dev.Settled := .inr (hqtest htaken hlast)
    have hsettled' : dev'.Settled := .inl hno
    rw [hsettled.heading, hsettled'.heading, hsame.credentials]

/-- A learned key is not one of the credentials. -/
theorem learnPeerKey_credentials (idx : ℕ) (newPeer : Option (Bytes 32)) :
    (dev.learnPeerKey idx newPeer).credentials i = dev.credentials i := by
  cases newPeer with
  | none => rfl
  | some key =>
    rw [learnPeerKey, credentials, credentials]
    dsimp only [write]
    by_cases hsame : i = idx
    · subst hsame
      rw [Function.update_self]
      rfl
    · rw [Function.update_of_ne hsame]

/-- Learning a key keeps the heading. -/
theorem learnPeerKey_heading (dev : RotationDevice) (idx : ℕ) (newPeer : Option (Bytes 32)) :
    (dev.learnPeerKey idx newPeer).heading rd i = dev.heading rd i :=
  heading_congr (by rw [learnPeerKey_eq]) (fun _ => by rw [learnPeerKey_eq])
    (by rw [learnPeerKey_eq]) (learnPeerKey_credentials idx newPeer)

/-- So does the addition of another contact. -/
theorem addContact_heading (hin : dev.inUse i = true) (keys : ContactDevice.ContactKeys)
    (ids : ContactDevice.QueueIds) (rqKeys : NewQueueKeys) (rqIds : Option NewQueueIds) :
    (dev.addContact X keys ids rqKeys rqIds).heading rd i = dev.heading rd i := by
  rcases dev.addContact_cases keys ids rqKeys rqIds with heq | ⟨slot, -, hfree, heq⟩
  · rw [heq]
  · have hne : i ≠ slot := by
      rintro rfl
      exact absurd (hfree.symm.trans hin) (by simp)
    rw [heq, saveNewContact_eq]
    refine heading_congr rfl (fun _ => rfl) rfl ?_
    rw [credentials, credentials]
    dsimp only
    rw [Function.update_of_ne hne, Function.update_of_ne hne]

/-- Every step of a rotation that is left to finish keeps where a contact is heading, with the
queues that are made for it. -/
theorem Restorable.step_heading (h : Restorable dev) {label : RotationLabel}
    (hgo : Finishing label = true) (htol : Tolerable X dev label) (hi : i < maxContacts)
    (hin : dev.inUse i = true) (hrd : dev.ctx.active = true → (dev.record i).state ≠ .idle →
      (dev.record i).main = rd.main ∧ (dev.record i).rq = rd.rq) :
    (dev.step X label).heading rd i = dev.heading rd i := by
  cases label with
  | start idx srv => cases hgo
  | abort => cases hgo
  | appStep env =>
    rw [RotationDevice.step]
    rcases appRotationStep_worked (X := X) h.allocated env with ⟨-, hsame, hctx⟩ | ⟨d, hd, heq⟩
    · exact heading_congr (by rw [hctx]) (fun _ => by rw [hctx]) (by rw [hsame.ourQueue])
        (hsame.credentials i)
    · rw [heq]
      exact hd.heading h hi hin (hrd hd.active (hd.queues i (mem_activeSlots.2 ⟨hi, hin⟩)))
  | contactMsg idx env =>
    exact (dev.contactMsg_step X idx env).heading h.allocated (htol.qtest idx)
  | replyMsg idx legacy env =>
    obtain ⟨learned, hlearned, hs⟩ := dev.replyMsg_step X idx legacy env
    rcases hlearned with rfl | ⟨-, -, rfl⟩
    · exact hs.heading h.allocated (htol.qtest idx)
    · have hctx : (dev.learnPeerKey idx env.newPeer).ctx = dev.ctx := by rw [learnPeerKey_eq]
      have hrecords : (dev.learnPeerKey idx env.newPeer).records = dev.records := by
        rw [learnPeerKey_eq]
      rw [hs.heading (by rw [hctx, hrecords]; exact h.allocated) ?_, learnPeerKey_heading]
      intro htaken hlast
      have honTarget : (dev.learnPeerKey idx env.newPeer).onTarget = dev.onTarget := by
        rw [onTarget, learnPeerKey_eq, onTarget]
      rw [honTarget]
      refine htol.qtest idx htaken ?_
      rw [othersQtestDone, learnPeerKey_eq] at hlast
      exact hlast
  | addContact keys ids rqKeys rqIds => exact addContact_heading hin keys ids rqKeys rqIds
  | confirm idx =>
    have hsame : SameCredentials dev (dev.sendAgentConfirmation idx) := .sendAgentConfirmation idx
    have hctx : (dev.sendAgentConfirmation idx).ctx = dev.ctx := by
      rw [sendAgentConfirmation]
      split
      · split <;> rfl
      · rfl
    exact heading_congr (by rw [RotationDevice.step, hctx])
      (fun _ => by rw [RotationDevice.step, hctx]) (by rw [RotationDevice.step, hsame.ourQueue])
      (hsame.credentials i)
  | reboot created =>
    exact h.boot_heading (htol.made ⟨created, rfl⟩) hi hin created (.inl rfl) rfl rfl rfl

/-! ### A cut keeps the heading -/

section Cut

variable {e : RotationDevice} {p writes : List (FlashKey × Option FlashBlob)}

/-- Writes that keep the credentials keep the rotation. -/
theorem sameRotation_of_keeping (hp : ∀ w ∈ p, KeepingWrite dev w) :
    SameRotation dev (dev.nvs.applyAll p) := by
  rcases Store.applyAll_eq_or dev.nvs p .rotCtx with ⟨hkey, -⟩ | hkey
  · exact .inl hkey
  · generalize hblob : dev.nvs.applyAll p .rotCtx = blob at hkey
    have hkeeping := hp _ hkey
    cases hkeeping with
    | counted n hactive => exact .inr ⟨hactive, n, hblob⟩
    | other _ _ hrotation _ => cases hrotation

/-- They leave every credential. -/
theorem applyAll_of_keeping (s : Store FlashKey FlashBlob) (hp : ∀ w ∈ p, KeepingWrite dev w)
    {key : FlashKey} (hkey : key.ofCredentials = true) : s.applyAll p key = s key := by
  refine Store.applyAll_of_forall_ne _ _ _ fun w hw hsame => ?_
  subst hsame
  exact absurd ((hp w hw).key.symm.trans hkey) (by simp)

/-- A cut among writes that keep the credentials. -/
theorem Restorable.keeping_heading (h : Restorable dev) (hmade : dev.QueuesMade)
    (hi : i < maxContacts) (hin : dev.inUse i = true) (created : OurQueue)
    (hp : ∀ w ∈ p, KeepingWrite dev w) (he : e.nvs = dev.nvs.applyAll p) :
    (e.boot created).heading rd i = dev.heading rd i := by
  have hkey : ∀ key : FlashKey, key.ofCredentials = true → e.nvs key = dev.nvs key :=
    fun key hkey => by rw [he, applyAll_of_keeping _ hp hkey]
  exact h.boot_heading hmade hi hin created (by rw [he]; exact sameRotation_of_keeping hp)
    (hkey _ rfl) (hkey _ rfl) (hkey _ rfl)

/-- A cut among the deletions of a rotation. -/
theorem Restorable.cleared_heading (h : Restorable dev) (hmade : dev.QueuesMade)
    (hi : i < maxContacts) (hin : dev.inUse i = true) (created : OurQueue)
    (hp : ∀ w ∈ p, KeepingWrite dev w) {q : List (FlashKey × Option FlashBlob)}
    (hq : q <+: clearedWrites) (hne : q ≠ []) (he : e.nvs = dev.nvs.applyAll (p ++ q)) :
    (e.boot created).heading rd i = dev.credentials i := by
  have hkey : ∀ key : FlashKey, key.ofCredentials = true → key.ofRotation = false →
      e.nvs key = dev.nvs key := fun key hkey hrotation => by
    rw [he, Store.applyAll_append, applyAll_cleared_of_ne _ hq hrotation,
      applyAll_of_keeping _ hp hkey]
  have hsettled : (e.boot created).Settled := by
    refine .inl ?_
    rw [RotationDevice.boot_ctx, loadedContext, he, Store.applyAll_append,
      applyAll_cleared_rotCtx _ hq hne]
    rfl
  rw [hsettled.heading]
  exact h.boot_credentials hmade hi hin created (hkey _ rfl rfl) (hkey _ rfl rfl)

/-- A message that was cut keeps the heading. -/
theorem MsgStep.cut_heading {taken : Prop} {idx : ℕ} (hs : MsgStep taken idx dev dev')
    (h : Restorable dev) (hmade : dev.QueuesMade) (hi : i < maxContacts)
    (hin : dev.inUse i = true) (created : OurQueue)
    (hqtest : taken → dev.othersQtestDone idx → dev.onTarget = true)
    (hflash : dev'.flash = dev.flash ++ writes) (hp : p <+: writes)
    (he : e.nvs = dev.nvs.applyAll p) : (e.boot created).heading rd i = dev.heading rd i := by
  obtain ⟨-, body, tail, hbody, heq, hends⟩ := hs.writes h.allocated
  obtain rfl := List.append_cancel_left (hflash.symm.trans heq)
  rcases prefix_body_or_cleared (hends.imp And.left And.left) hp with hpre | ⟨q, hq, hne, rfl⟩
  · exact h.keeping_heading hmade hi hin created (fun w hw => hbody w (hpre.subset hw)) he
  · rw [h.cleared_heading hmade hi hin created hbody hq hne he]
    rcases hends with ⟨rfl, -⟩ | ⟨-, -, -, htaken, hlast⟩
    · exact absurd (List.prefix_nil.1 ((List.prefix_append_right_inj body).1 hp)) hne
    · have hsettled : dev.Settled := .inr (hqtest htaken hlast)
      rw [hsettled.heading]

/-- Credentials that were moved stay where they head for. -/
theorem heading_of_moved {held : Contact × ReplyQueue}
    (h : dev.credentials i = moveCredentials held rd) : dev.heading rd i = dev.credentials i := by
  rw [heading, headingOf, h]
  split
  · exact moveCredentials_moved held rd
  · rfl

/-- The write of a contact in the live switch. -/
theorem applyAll_contactWrites (s : Store FlashKey FlashBlob) (hi : i < maxContacts)
    (hin : dev.inUse i = true) :
    s.applyAll dev.contactWrites (.cnt i) = some (.contact (dev.contacts i)) :=
  (Store.applyAll_map s _ FlashKey.cnt _ (fun _ _ _ _ h => by simpa using h)
    (List.mem_range.2 hi)).trans (if_pos hin)

/-- The write of a moved reply queue. -/
theorem applyAll_replyQueueWrites (s : Store FlashKey FlashBlob) (h : dev.migrates i = true) :
    s.applyAll dev.replyQueueWrites (.rq i) = some (.replyQueue (dev.replyQueues i)) :=
  Store.applyAll_map s _ FlashKey.rq _ (fun _ _ _ _ h => by simpa using h)
    (mem_migratedSlots.2 h)

/-- A contact may have been written. -/
theorem contactWrites_cut (s : Store FlashKey FlashBlob) (hp : p <+: dev.contactWrites)
    (hin : dev.inUse i = true) : s.applyAll p (.cnt i) = s (.cnt i) ∨
      (.cnt i ∈ p.map Prod.fst ∧ s.applyAll p (.cnt i) = some (.contact (dev.contacts i))) := by
  refine (Store.applyAll_eq_or s p (.cnt i)).imp And.left fun hw => ?_
  refine ⟨List.mem_map.2 ⟨_, hw, rfl⟩, ?_⟩
  obtain ⟨j, -, hj⟩ := List.mem_map.1 (hp.subset hw)
  obtain rfl : j = i := by simpa using congrArg Prod.fst hj
  exact (congrArg Prod.snd hj).symm.trans (if_pos hin)

/-- A reply queue may have been written. -/
theorem replyQueueWrites_cut (s : Store FlashKey FlashBlob) (hp : p <+: dev.replyQueueWrites) :
    (s.applyAll p (.rq i) = s (.rq i) ∧ .rq i ∉ p.map Prod.fst) ∨
      s.applyAll p (.rq i) = some (.replyQueue (dev.replyQueues i)) := by
  refine (Store.applyAll_eq_or s p (.rq i)).imp id fun hw => ?_
  obtain ⟨j, -, hj⟩ := List.mem_map.1 (hp.subset hw)
  obtain rfl : j = i := by simpa using congrArg Prod.fst hj
  exact (congrArg Prod.snd hj).symm

/-- The contact writes are writes of contacts. -/
theorem contactWrites_key {w : FlashKey × Option FlashBlob} (hw : w ∈ dev.contactWrites) :
    ∃ j, w.1 = .cnt j := by
  obtain ⟨j, -, rfl⟩ := List.mem_map.1 hw
  exact ⟨j, rfl⟩

/-- The reply queue writes are writes of reply queues. -/
theorem replyQueueWrites_key {w : FlashKey × Option FlashBlob} (hw : w ∈ dev.replyQueueWrites) :
    ∃ j, w.1 = .rq j := by
  obtain ⟨j, -, rfl⟩ := List.mem_map.1 hw
  exact ⟨j, rfl⟩

/-- Entries other than contacts after contact writes. -/
theorem applyAll_contactWrites_of_ne (s : Store FlashKey FlashBlob) (hp : p <+: dev.contactWrites)
    {key : FlashKey} (hkey : ∀ j, key ≠ .cnt j) : s.applyAll p key = s key := by
  refine Store.applyAll_of_forall_ne _ _ _ fun w hw hsame => ?_
  obtain ⟨j, hj⟩ := contactWrites_key (hp.subset hw)
  exact hkey j (hsame.symm.trans hj)

/-- Entries other than reply queues after reply queue writes. -/
theorem applyAll_replyQueueWrites_of_ne (s : Store FlashKey FlashBlob)
    (hp : p <+: dev.replyQueueWrites) {key : FlashKey} (hkey : ∀ j, key ≠ .rq j) :
    s.applyAll p key = s key := by
  refine Store.applyAll_of_forall_ne _ _ _ fun w hw hsame => ?_
  obtain ⟨j, hj⟩ := replyQueueWrites_key (hp.subset hw)
  exact hkey j (hsame.symm.trans hj)

/-- The same rotation is stored where its entry is the same. -/
theorem SameRotation.congr {nvs nvs' : Store FlashKey FlashBlob} (h : SameRotation dev nvs)
    (hsame : nvs' .rotCtx = nvs .rotCtx) : SameRotation dev nvs' := by
  rw [SameRotation, hsame]
  exact h

/-- The contact that the live switch makes. -/
theorem Switching.contacts (h : Switching dev dev') (hi : i < maxContacts)
    (hin : dev.inUse i = true) (hrd : (dev.record i).main = rd.main ∧ (dev.record i).rq = rd.rq) :
    dev'.migrateCredentials.contacts i = (dev.contacts i).migrate rd ∧
      dev'.migrateCredentials.replyQueues i = (dev.replyQueues i).migrate (dev.contacts i) rd := by
  have hslot : i ∈ dev.activeSlots := mem_activeSlots.2 ⟨hi, hin⟩
  obtain ⟨-, hmain, hrq⟩ := h.worked.settles i (h.queues i hslot)
  have hmoved := h.moved i hslot
  rw [migrateCredentials_contacts hmoved, migrateCredentials_replyQueues hmoved, h.same.contacts,
    h.same.replyQueues]
  exact ⟨Contact.migrate_congr (hmain.trans hrd.1) _,
    ReplyQueue.migrate_congr (hmain.trans hrd.1) (hrq.trans hrd.2) _ _⟩

/-- Where a contact heads for after a cut of the live switch, when our queue has not landed. -/
theorem Switching.heading_before (h : Switching dev dev') (hrestorable : Restorable dev)
    (created : OurQueue) (hctx : SameRotation dev e.nvs)
    (hour : e.nvs .queueOur = dev.nvs .queueOur)
    (hheld : moveCredentials ((e.boot created).credentials i) rd =
      moveCredentials (dev.credentials i) rd) :
    (e.boot created).heading rd i = dev.heading rd i := by
  obtain ⟨hactive, htarget⟩ := hctx.boot_ctx hrestorable created
  have helsewhere : (e.boot created).onTarget = false := by
    rw [onTarget, hrestorable.boot_ourQueue created hour, htarget h.active]
    exact h.elsewhere
  rw [heading_of_elsewhere (hactive.trans h.active) helsewhere, hheld,
    heading_of_elsewhere h.active h.elsewhere]

/-- A contact and its reply queue that have both landed are the moved ones. -/
theorem Switching.credentials_moved (h : Switching dev dev') (hi : i < maxContacts)
    (hin : dev.inUse i = true) (hrd : (dev.record i).main = rd.main ∧ (dev.record i).rq = rd.rq)
    (created : OurQueue)
    (hcnt : e.nvs (.cnt i) = some (.contact (dev'.migrateCredentials.contacts i)))
    (hrq : e.nvs (.rq i) = some (.replyQueue (dev'.migrateCredentials.replyQueues i))) :
    (e.boot created).credentials i = moveCredentials (dev.credentials i) rd := by
  obtain ⟨hcontact, hqueue⟩ := h.contacts hi hin hrd
  rw [credentials, boot_contacts, boot_replyQueues, loadedContact_of_some hi hcnt,
    loadedReplyQueue_of_some hi hrq, hcontact, hqueue]
  rfl

/-- A contact that has landed without its reply queue has the rest of the move before it, if the
queue has the peer's key. -/
theorem Switching.credentials_half (h : Switching dev dev') (hrestorable : Restorable dev)
    (hmade : dev.QueuesMade) (hi : i < maxContacts) (hin : dev.inUse i = true)
    (hrd : (dev.record i).main = rd.main ∧ (dev.record i).rq = rd.rq) (created : OurQueue)
    (hcnt : e.nvs (.cnt i) = some (.contact (dev'.migrateCredentials.contacts i)))
    (hrq : e.nvs (.rq i) = dev.nvs (.rq i)) (hkept : (dev.replyQueues i).hasPeerDh = true) :
    moveCredentials ((e.boot created).credentials i) rd =
      moveCredentials (dev.credentials i) rd := by
  have hheld : (e.boot created).credentials i =
      ((dev.contacts i).migrate rd, (dev.replyQueues i).withoutPeerKey) := by
    rw [credentials, boot_contacts, boot_replyQueues, loadedContact_of_some hi hcnt,
      (h.contacts hi hin hrd).1, loadedReplyQueue_congr hrq,
      hrestorable.stored_replyQueue hmade hi hin]
  have hhalf : (dev.replyQueues i).withoutPeerKey.hasPeerDh = true := hkept
  rw [hheld]
  exact moveCredentials_half hhalf rd

/-- The live switch leaves a contact in use. -/
theorem Switching.inUse (h : Switching dev dev') (hi : i < maxContacts) (hin : dev.inUse i = true)
    (hrd : (dev.record i).main = rd.main ∧ (dev.record i).rq = rd.rq) :
    dev'.migrateCredentials.inUse i = true := by
  rw [RotationDevice.inUse, (h.contacts hi hin hrd).1]
  exact hin

/-- A cut among the contacts of the live switch, in a store with the old credentials. -/
theorem Switching.cut_contacts (h : Switching dev dev') (hrestorable : Restorable dev)
    (hmade : dev.QueuesMade) (hi : i < maxContacts) (hin : dev.inUse i = true)
    (hrd : (dev.record i).main = rd.main ∧ (dev.record i).rq = rd.rq) (created : OurQueue)
    {s : Store FlashKey FlashBlob} (hrotation : SameRotation dev s)
    (hcredentials : ∀ key : FlashKey, key.ofCredentials = true → s key = dev.nvs key)
    (hp : p <+: dev'.migrateCredentials.contactWrites)
    (hlands : .cnt i ∈ p.map Prod.fst → (dev.replyQueues i).hasPeerDh = true)
    (he : e.nvs = s.applyAll p) : (e.boot created).heading rd i = dev.heading rd i := by
  have hrq : e.nvs (.rq i) = dev.nvs (.rq i) := by
    rw [he, applyAll_contactWrites_of_ne _ hp (by simp), hcredentials _ rfl]
  refine h.heading_before hrestorable created (hrotation.congr ?_) ?_ ?_
  · rw [he, applyAll_contactWrites_of_ne _ hp (by simp)]
  · rw [he, applyAll_contactWrites_of_ne _ hp (by simp), hcredentials _ rfl]
  · rcases contactWrites_cut s hp (h.inUse hi hin hrd) with hold | ⟨hwritten, hnew⟩
    · rw [hrestorable.boot_credentials hmade hi hin created
        (by rw [he, hold, hcredentials _ rfl]) hrq]
    · exact h.credentials_half hrestorable hmade hi hin hrd created (by rw [he, hnew]) hrq
        (hlands hwritten)

/-- A cut among the reply queues, when every contact has landed. -/
theorem Switching.cut_replyQueues (h : Switching dev dev') (hrestorable : Restorable dev)
    (hmade : dev.QueuesMade) (hi : i < maxContacts) (hin : dev.inUse i = true)
    (hrd : (dev.record i).main = rd.main ∧ (dev.record i).rq = rd.rq) (created : OurQueue)
    {s : Store FlashKey FlashBlob} (hrotation : SameRotation dev s)
    (hcredentials : ∀ key : FlashKey, key.ofCredentials = true → s key = dev.nvs key)
    (hp : p <+: dev'.migrateCredentials.replyQueueWrites)
    (hlands : .rq i ∉ p.map Prod.fst → (dev.replyQueues i).hasPeerDh = true)
    (he : e.nvs = (s.applyAll dev'.migrateCredentials.contactWrites).applyAll p) :
    (e.boot created).heading rd i = dev.heading rd i := by
  have hcontacts : e.nvs (.cnt i) = some (.contact (dev'.migrateCredentials.contacts i)) := by
    rw [he, applyAll_replyQueueWrites_of_ne _ hp (by simp),
      applyAll_contactWrites s hi (h.inUse hi hin hrd)]
  refine h.heading_before hrestorable created (hrotation.congr ?_) ?_ ?_
  · rw [he, applyAll_replyQueueWrites_of_ne _ hp (by simp),
      applyAll_contactWrites_of_ne _ (List.prefix_refl _) (by simp)]
  · rw [he, applyAll_replyQueueWrites_of_ne _ hp (by simp),
      applyAll_contactWrites_of_ne _ (List.prefix_refl _) (by simp), hcredentials _ rfl]
  · rcases replyQueueWrites_cut (i := i) (s.applyAll dev'.migrateCredentials.contactWrites) hp with
      ⟨hold, hnotWritten⟩ | hnew
    · have hrq : e.nvs (.rq i) = dev.nvs (.rq i) := by
        rw [he, hold, applyAll_contactWrites_of_ne _ (List.prefix_refl _) (by simp),
          hcredentials _ rfl]
      exact h.credentials_half hrestorable hmade hi hin hrd created hcontacts hrq
        (hlands hnotWritten)
    · rw [h.credentials_moved hi hin hrd created hcontacts (by rw [he, hnew]),
        moveCredentials_moved]

/-- A cut behind every contact and every reply queue: what follows touches neither. -/
theorem Switching.cut_behind (h : Switching dev dev') (hi : i < maxContacts)
    (hin : dev.inUse i = true) (hrd : (dev.record i).main = rd.main ∧ (dev.record i).rq = rd.rq)
    (created : OurQueue) {s : Store FlashKey FlashBlob}
    (hrest : ∀ key ∈ [FlashKey.cnt i, .rq i], ∀ t : Store FlashKey FlashBlob,
      t.applyAll p key = t key)
    (he : e.nvs = ((s.applyAll dev'.migrateCredentials.contactWrites).applyAll
      dev'.migrateCredentials.replyQueueWrites).applyAll p) :
    (e.boot created).heading rd i = dev.heading rd i := by
  have hmigrates : dev'.migrateCredentials.migrates i = true := by
    rw [← mem_migratedSlots, migrateCredentials_migratedSlots, mem_migratedSlots,
      h.moved i (mem_activeSlots.2 ⟨hi, hin⟩)]
  have hcontacts : e.nvs (.cnt i) = some (.contact (dev'.migrateCredentials.contacts i)) := by
    rw [he, hrest _ (by simp), applyAll_replyQueueWrites_of_ne _ (List.prefix_refl _) (by simp),
      applyAll_contactWrites _ hi (h.inUse hi hin hrd)]
  have hqueues : e.nvs (.rq i) = some (.replyQueue (dev'.migrateCredentials.replyQueues i)) := by
    rw [he, hrest _ (by simp), applyAll_replyQueueWrites _ hmigrates]
  have hheld := h.credentials_moved hi hin hrd created hcontacts hqueues
  rw [heading_of_moved hheld, hheld, heading_of_elsewhere h.active h.elsewhere]

/-- What has landed of the switched credentials: the contact before its reply queue, and both
before our queue. -/
theorem Switching.cut_heading (h : Switching dev dev') (hrestorable : Restorable dev)
    (hmade : dev.QueuesMade) (hi : i < maxContacts) (hin : dev.inUse i = true)
    (hrd : (dev.record i).main = rd.main ∧ (dev.record i).rq = rd.rq) (created : OurQueue)
    (hflash : dev'.rotationComplete.flash = dev.flash ++ writes) (hp : p <+: writes)
    (hlands : (dev.replyQueues i).hasPeerDh = false → .cnt i ∈ p.map Prod.fst →
      .rq i ∈ p.map Prod.fst)
    (he : e.nvs = dev.nvs.applyAll p) : (e.boot created).heading rd i = dev.heading rd i := by
  obtain ⟨before, after, tail, hbefore, hafter, hends, heq⟩ := h.writes
  obtain rfl := List.append_cancel_left (hflash.symm.trans heq)
  rcases Store.prefix_append_cases hp with hpre | ⟨r, hr, rfl⟩
  · exact hrestorable.keeping_heading hmade hi hin created (fun w hw => hbefore w (hpre.subset hw)) he
  have hrotation := sameRotation_of_keeping hbefore
  have hcredentials : ∀ key : FlashKey, key.ofCredentials = true →
      dev.nvs.applyAll before key = dev.nvs key := fun key => applyAll_of_keeping _ hbefore
  -- without the peer's key, a contact that has landed has its reply queue landed
  have hnotBefore : FlashKey.rq i ∉ before.map Prod.fst := by
    intro hmem
    obtain ⟨w, hw, hkey⟩ := List.mem_map.1 hmem
    have hno := (hbefore w hw).key
    rw [hkey] at hno
    cases hno
  have hnotContacts : ∀ {q}, q <+: dev'.migrateCredentials.contactWrites →
      FlashKey.rq i ∉ q.map Prod.fst := by
    intro q hq hmem
    obtain ⟨w, hw, hkey⟩ := List.mem_map.1 hmem
    obtain ⟨j, hj⟩ := contactWrites_key (hq.subset hw)
    cases hkey.symm.trans hj
  have hneeds : .cnt i ∈ r.map Prod.fst → .rq i ∉ r.map Prod.fst →
      (dev.replyQueues i).hasPeerDh = true := by
    intro hwritten hnot
    by_contra hno
    rw [Bool.not_eq_true] at hno
    rw [List.map_append, List.mem_append, List.mem_append] at hlands
    exact (hlands hno (.inr hwritten)).elim hnotBefore hnot
  rw [Store.applyAll_append] at he
  rcases Store.prefix_append_cases hr with hp | ⟨q, hq, rfl⟩
  · exact h.cut_contacts hrestorable hmade hi hin hrd created hrotation hcredentials hp
      (fun hwritten => hneeds hwritten (hnotContacts hp)) he
  rw [Store.applyAll_append] at he
  have hwritten : FlashKey.cnt i ∈ dev'.migrateCredentials.contactWrites.map Prod.fst :=
    List.mem_map.2 ⟨_, List.mem_map.2 ⟨i, List.mem_range.2 hi, rfl⟩, rfl⟩
  rw [List.map_append, List.mem_append, List.mem_append, not_or] at hneeds
  rcases Store.prefix_append_cases hq with hp | ⟨last, hlast, rfl⟩
  · exact h.cut_replyQueues hrestorable hmade hi hin hrd created hrotation hcredentials hp
      (fun hnot => hneeds (.inl hwritten) ⟨hnotContacts (List.prefix_refl _), hnot⟩) he
  rw [Store.applyAll_append] at he
  refine h.cut_behind hi hin hrd created (fun key hkey s => ?_) he
  -- our queue, then entries of the rotation
  refine Store.applyAll_of_forall_ne _ _ _ fun w hw hsame => ?_
  have hcred : key.ofCredentials = true ∧ key.ofRotation = false ∧ key ≠ .queueOur := by
    rcases List.mem_pair.1 hkey with rfl | rfl <;> exact ⟨rfl, rfl, by simp⟩
  subst hsame
  rcases List.mem_cons.1 (hlast.subset hw) with rfl | hw
  · exact hcred.2.2 rfl
  · rcases List.mem_append.1 hw with hw | hw
    · exact absurd ((hafter w hw).key.symm.trans hcred.1) (by simp)
    · rcases hends with ⟨rfl, -⟩ | ⟨rfl, -⟩
      · cases hw
      · obtain ⟨cleared, hmem, rfl⟩ := List.mem_map.1 hw
        rcases mem_clearedKeys.1 hmem with rfl | ⟨j, -, rfl⟩ <;> cases hcred.2.1

end Cut

/-! ### Power losses -/

/-- What a step has written when the power goes, after `k + 1` writes. -/
def landed (X : Sodium) (dev : RotationDevice) (label : RotationLabel) (k : ℕ) :
    List (FlashKey × Option FlashBlob) :=
  ((dev.step X label).flash.drop dev.flash.length).take (k + 1)

/-- The device after a power loss in a step, and the start-up that follows. -/
def powerLoss (X : Sodium) (dev : RotationDevice) (label : RotationLabel) (k : ℕ)
    (created : OurQueue) : RotationDevice :=
  { dev.step X label with flash := dev.flash ++ dev.landed X label k }.boot created

/-- The power does not go between the write of a contact and that of its reply queue, while the
reply queue has no DH keys of the peer kept aside. -/
def PairsLand (X : Sodium) (dev : RotationDevice) (label : RotationLabel) (k : ℕ) : Prop :=
  ∀ i < maxContacts, dev.inUse i = true ∧ (dev.replyQueues i).hasPeerDh = false →
    .cnt i ∈ (dev.landed X label k).map Prod.fst → .rq i ∈ (dev.landed X label k).map Prod.fst

instance (X : Sodium) (dev : RotationDevice) (label : RotationLabel) (k : ℕ) :
    Decidable (dev.PairsLand X label k) := inferInstanceAs (Decidable (∀ i < maxContacts, _))

variable {label : RotationLabel} {k : ℕ}

/-- What has landed is a prefix of the writes. -/
theorem landed_eq {writes : List (FlashKey × Option FlashBlob)}
    (hflash : (dev.step X label).flash = dev.flash ++ writes) :
    dev.landed X label k = writes.take (k + 1) := by
  rw [landed, hflash, List.drop_left]

/-- A step that writes nothing has nothing landed. -/
theorem landed_of_flash (hflash : (dev.step X label).flash = dev.flash) :
    dev.landed X label k = [] := by
  rw [landed_eq (hflash.trans (List.append_nil _).symm), List.take_nil]

/-- NVS when the power goes. -/
theorem cut_nvs (X : Sodium) (dev : RotationDevice) (label : RotationLabel) (k : ℕ) :
    ({ dev.step X label with flash := dev.flash ++ dev.landed X label k } :
    RotationDevice).nvs = dev.nvs.applyAll (dev.landed X label k) := nvs_append rfl

/-- The device can be restored after a power loss. -/
theorem Restorable.powerLoss (h : Restorable dev) (created : OurQueue) :
    Restorable (dev.powerLoss X label k created) := by
  obtain ⟨writes, hflash⟩ := h.step_flash (X := X) label
  obtain ⟨slots, -, hstored⟩ := (h.cutStored label hflash
    (landed_eq (k := k) hflash ▸ List.take_prefix ..)).stored
  rw [← cut_nvs] at hstored
  exact hstored.boot created

/-- The contacts in use stay so. -/
theorem Restorable.powerLoss_inUse (h : Restorable dev) (created : OurQueue) (hi : i < maxContacts)
    (hin : dev.inUse i = true) : (dev.powerLoss X label k created).inUse i = true := by
  obtain ⟨writes, hflash⟩ := h.step_flash (X := X) label
  obtain ⟨slots, hslots, hstored⟩ := (h.cutStored label hflash
    (landed_eq (k := k) hflash ▸ List.take_prefix ..)).stored
  rw [← cut_nvs] at hstored
  exact (hstored.boot_inUse created hi).trans (hslots i hi hin)

/-- So they do in a step that is not cut. -/
theorem Restorable.step_inUse (h : Restorable dev) (hclean : dev.StartsClean label)
    (hi : i < maxContacts) (hin : dev.inUse i = true) : (dev.step X label).inUse i = true := by
  obtain ⟨writes, hflash⟩ := h.step_flash (X := X) label
  obtain ⟨slots, hslots, hstored⟩ := (h.cutStored label hflash (List.prefix_refl _)).stored
  rw [← nvs_append hflash] at hstored
  obtain ⟨c, -, hc⟩ := hstored.contacts i hi (hslots i hi hin)
  have hsaved := (h.step (X := X) hclean).credentials.contacts i hi
  rw [hc] at hsaved
  by_contra hno
  rw [inUse] at hno
  rw [if_neg hno] at hsaved
  cases hsaved

/-- The reply queues are still made with a learned key. -/
theorem QueuesMade.learnPeerKey (h : dev.QueuesMade) {idx : ℕ}
    (hvalid : (dev.replyQueues idx).valid = true) (newPeer : Option (Bytes 32)) :
    (dev.learnPeerKey idx newPeer).QueuesMade := by
  cases newPeer with
  | none => exact h
  | some key =>
    intro j hj hin
    rw [RotationDevice.learnPeerKey]
    dsimp only [write]
    by_cases hsame : j = idx
    · subst hsame
      rw [Function.update_self]
      exact .inl hvalid
    · rw [Function.update_of_ne hsame]
      exact h j hj hin

/-- A message on a reply queue that was cut: the learned key lands first. -/
theorem Restorable.replyMsg_cut_heading (h : Restorable dev) {idx : ℕ} {legacy : Bool} {env : MsgEnv}
    (htol : Tolerable X dev (.replyMsg idx legacy env)) (hmade : dev.QueuesMade)
    (created : OurQueue) (hi : i < maxContacts) (hin : dev.inUse i = true) :
    (dev.powerLoss X (.replyMsg idx legacy env) k created).heading rd i = dev.heading rd i := by
  have he := cut_nvs X dev (.replyMsg idx legacy env) k
  have hlanded : ∀ {writes}, (dev.step X (.replyMsg idx legacy env)).flash = dev.flash ++ writes →
      dev.landed X (.replyMsg idx legacy env) k <+: writes := fun hflash =>
    landed_eq hflash ▸ List.take_prefix ..
  obtain ⟨learned, hlearned, hs⟩ := dev.replyMsg_step X idx legacy env
  rcases hlearned with rfl | ⟨hidx, hvalid, rfl⟩
  · obtain ⟨writes, hflash⟩ := h.step_flash (X := X) (.replyMsg idx legacy env)
    exact hs.cut_heading h hmade hi hin created (htol.qtest idx) hflash (hlanded hflash) he
  · have hlearn := h.learnPeerKey hidx hvalid env.newPeer
    have hinUse : (dev.learnPeerKey idx env.newPeer).inUse i = true := by
      rw [inUse, learnPeerKey_eq]
      exact hin
    have hqtest : dev.takenQtest X (.replyMsg idx legacy env) = some idx →
        (dev.learnPeerKey idx env.newPeer).othersQtestDone idx →
          (dev.learnPeerKey idx env.newPeer).onTarget = true := by
      rw [othersQtestDone, onTarget, learnPeerKey_eq]
      exact htol.qtest idx
    obtain ⟨-, body, tail, -, hflash, -⟩ := hs.writes hlearn.allocated
    refine Eq.trans ?_ (dev.learnPeerKey_heading idx env.newPeer)
    rcases dev.learnPeerKey_flash idx env.newPeer with hsame | hwrite
    · have hnvs : (dev.learnPeerKey idx env.newPeer).nvs = dev.nvs := by rw [nvs, hsame, nvs]
      exact hs.cut_heading hlearn (hmade.learnPeerKey hvalid env.newPeer) hi hinUse created hqtest
        hflash (hlanded (hsame ▸ hflash)) (by rw [he, hnvs])
    · have hall : (dev.step X (.replyMsg idx legacy env)).flash = dev.flash ++
          ((.rq idx, some (.replyQueue ((dev.learnPeerKey idx env.newPeer).replyQueues idx))) ::
            (body ++ tail)) := by
        rw [hflash, hwrite, List.append_assoc]
        rfl
      have hnvs := nvs_append hwrite
      refine hs.cut_heading hlearn (hmade.learnPeerKey hvalid env.newPeer) hi hinUse created hqtest
        hflash (List.take_prefix k _) ?_
      rw [he, landed_eq hall, List.take_succ_cons, Store.applyAll_cons, hnvs, Store.applyAll_cons,
        Store.applyAll_nil]

/-- After a power loss in a step that is left to finish a contact heads where it was heading. -/
theorem Restorable.powerLoss_heading_of_finishing (h : Restorable dev)
    (hgo : Finishing label = true) (htol : Tolerable X dev label) (hmade : dev.QueuesMade)
    (hlands : dev.PairsLand X label k) (created : OurQueue) (hi : i < maxContacts)
    (hin : dev.inUse i = true) (hrd : dev.ctx.active = true → (dev.record i).state ≠ .idle →
      (dev.record i).main = rd.main ∧ (dev.record i).rq = rd.rq) :
    (dev.powerLoss X label k created).heading rd i = dev.heading rd i := by
  have he := cut_nvs X dev label k
  have hlanded : ∀ {writes}, (dev.step X label).flash = dev.flash ++ writes →
      dev.landed X label k <+: writes := fun hflash => landed_eq hflash ▸ List.take_prefix ..
  have hnothing : (dev.step X label).flash = dev.flash →
      (dev.powerLoss X label k created).heading rd i = dev.heading rd i := by
    intro hflash
    rw [landed_of_flash hflash, Store.applyAll_nil] at he
    exact h.keeping_heading hmade hi hin created (p := []) (by simp) (by
      rw [landed_of_flash hflash, he]
      rfl)
  cases label with
  | start idx srv => cases hgo
  | abort => cases hgo
  | appStep env =>
    rcases appRotationStep_worked (X := X) h.allocated env with ⟨hworked, -, -⟩ | ⟨d, hd, heq⟩
    · obtain ⟨body, hbody, hflash⟩ := hworked.writes
      exact h.keeping_heading hmade hi hin created
        (fun w hw => hbody w ((hlanded hflash).subset hw)) he
    · obtain ⟨writes, hflash⟩ := h.step_flash (X := X) (.appStep env)
      have hqueues := hrd hd.active (hd.queues i (mem_activeSlots.2 ⟨hi, hin⟩))
      exact hd.cut_heading h hmade hi hin hqueues created (heq ▸ hflash) (hlanded hflash)
        (fun hno => hlands i hi ⟨hin, hno⟩) he
  | contactMsg idx env =>
    obtain ⟨writes, hflash⟩ := h.step_flash (X := X) (.contactMsg idx env)
    exact (dev.contactMsg_step X idx env).cut_heading h hmade hi hin created (htol.qtest idx)
      hflash (hlanded hflash) he
  | replyMsg idx legacy env => exact h.replyMsg_cut_heading htol hmade created hi hin
  | addContact keys ids rqKeys rqIds =>
    rcases addContact_writes X dev keys ids rqKeys rqIds with
      heq | ⟨slot, c, rest, hfree, -, hrest, heq⟩
    · exact hnothing heq
    · have hne : i ≠ slot := by
        rintro rfl
        exact absurd (hfree.symm.trans hin) (by simp)
      have hother : ∀ key : FlashKey, key ≠ .cnt slot → key ≠ .rq slot →
          dev.nvs.applyAll (dev.landed X (.addContact keys ids rqKeys rqIds) k) key =
            dev.nvs key := by
        intro key hcnt hrq
        refine Store.applyAll_of_forall_ne _ _ _ fun w hw hsame => ?_
        subst hsame
        rcases List.mem_cons.1 ((hlanded heq).subset hw) with rfl | hw
        · exact hcnt rfl
        · rcases hrest with rfl | ⟨q, rfl⟩
          · cases hw
          · rw [List.mem_singleton.1 hw] at hrq
            exact hrq rfl
      exact h.boot_heading hmade hi hin created
        (.inl (by rw [he, hother _ (by simp) (by simp)]))
        (by rw [he, hother _ (by simpa using hne) (by simp)])
        (by rw [he, hother _ (by simp) (by simpa using hne)])
        (by rw [he, hother _ (by simp) (by simp)])
  | confirm idx =>
    refine hnothing ?_
    rw [RotationDevice.step, sendAgentConfirmation]
    split
    · split <;> rfl
    · rfl
  | reboot created' => exact hnothing (boot_flash created')

end RotationDevice

/-! ### Runs -/

/-- What happens to the device: a step, or a power loss after `k + 1` writes of one. -/
inductive PowerLabel where
  | step (label : RotationLabel)
  | powerLoss (label : RotationLabel) (k : ℕ) (created : OurQueue)

/-- The step that is made, or cut. -/
def PowerLabel.label : PowerLabel → RotationLabel
  | .step label | .powerLoss label _ _ => label

/-- The device, and how much was written to NVS when the last rotation was started. -/
structure RotationRun where
  dev : RotationDevice
  startedAt : ℕ

namespace RotationRun

open RotationDevice

/-- The start of a rotation is noted. -/
def noteStart (s : RotationRun) : RotationLabel → ℕ
  | .start idx _ => if s.dev.Starts idx then s.dev.flash.length else s.startedAt
  | _ => s.startedAt

/-- A step, or a power loss and the start-up after it. -/
def step (X : Sodium) (s : RotationRun) : PowerLabel → RotationRun
  | .step label => ⟨s.dev.step X label, s.noteStart label⟩
  | .powerLoss label k created => ⟨s.dev.powerLoss X label k created, s.noteStart label⟩

/-- A device without contacts. -/
def fresh (ourQueue : OurQueue) (serverCount : ℕ) : RotationRun := ⟨.fresh ourQueue serverCount, 0⟩

/-- What a rotation survives. -/
def Survivable (X : Sodium) (s : RotationRun) : PowerLabel → Prop
  | .step label => Tolerable X s.dev label
  | .powerLoss label k _ =>
    Tolerable X s.dev label ∧ s.dev.QueuesMade ∧ s.dev.PairsLand X label k

/-- Whether a rotation survives it can be computed. -/
instance decidableSurvivable (X : Sodium) (s : RotationRun) : ∀ a, Decidable (Survivable X s a)
  | .step label => inferInstanceAs (Decidable (Tolerable X s.dev label))
  | .powerLoss label k _ => inferInstanceAs (Decidable
    (Tolerable X s.dev label ∧ s.dev.QueuesMade ∧ s.dev.PairsLand X label k))

/-- A run that is left to finish: no live switch is to come at its end. -/
structure Finishes (X : Sodium) (s : RotationRun) (labels : List PowerLabel) : Prop where
  finishing : ∀ a ∈ labels, Finishing a.label = true
  survivable : StepsMeet (step X) (Survivable X) s labels
  settled : (runFrom (step X) s labels).dev.Settled

/-- The new queues of a contact in a run. -/
def MakesQueues (X : Sodium) (i : ℕ) (main rq : NewQueue) : RotationRun → List PowerLabel → Prop :=
  StepsMeet (step X) fun s _ => s.dev.ctx.active = true → (s.dev.record i).state ≠ .idle →
    (s.dev.record i).main = main ∧ (s.dev.record i).rq = rq

variable {X : Sodium} {s : RotationRun} {rd : RotationContactData} {i : ℕ}

/-! ### The proof -/

/-- What holds in every run: the device can be restored, and no record is older than the start of
the rotation. -/
structure Sound (s : RotationRun) : Prop where
  restorable : Restorable s.dev
  started : s.startedAt ≤ s.dev.flash.length
  clean : ∀ i < maxContacts,
    Store.applyAll (fun _ => none) (s.dev.flash.take s.startedAt) (.rotC i) = none

/-- More writes after a start that found no records. -/
theorem Sound.of_append (h : Sound s) {label : RotationLabel} (hclean : s.dev.StartsClean label)
    {d : RotationDevice} (hd : Restorable d) {writes : List (FlashKey × Option FlashBlob)}
    (hflash : d.flash = s.dev.flash ++ writes) : Sound ⟨d, s.noteStart label⟩ := by
  have hold : Sound ⟨d, s.startedAt⟩ := by
    refine ⟨hd, ?_, fun i hi => ?_⟩
    · rw [hflash, List.length_append]
      exact Nat.le_add_right_of_le h.started
    · dsimp only
      rw [hflash, List.take_append_of_le_length h.started]
      exact h.clean i hi
  cases label with
  | start idx srv =>
    rw [noteStart]
    split
    · rename_i hstarts
      refine ⟨hd, ?_, fun i hi => ?_⟩
      · dsimp only
        rw [hflash, List.length_append]
        exact Nat.le_add_right ..
      · dsimp only
        rw [hflash, List.take_left]
        exact hclean hstarts i hi
    · exact hold
  | _ => exact hold

/-- Every step of a run that is survived keeps it so. -/
theorem Sound.step (h : Sound s) {a : PowerLabel} (ha : Survivable X s a) : Sound (s.step X a) := by
  cases a with
  | step label =>
    obtain ⟨writes, hflash⟩ := h.restorable.step_flash (X := X) label
    exact h.of_append ha.clean (h.restorable.step ha.clean) hflash
  | powerLoss label k created =>
    exact h.of_append ha.1.clean (h.restorable.powerLoss created) (boot_flash created)

/-- A step of a finishing run keeps the slots in use. -/
theorem Sound.step_inUse (h : Sound s) {a : PowerLabel} (ha : Survivable X s a)
    (hi : i < maxContacts) (hin : s.dev.inUse i = true) : (s.step X a).dev.inUse i = true := by
  cases a with
  | step label => exact h.restorable.step_inUse ha.clean hi hin
  | powerLoss label k created => exact h.restorable.powerLoss_inUse created hi hin

/-- It keeps the heading of a contact. -/
theorem Sound.step_heading (h : Sound s) {a : PowerLabel} (hgo : Finishing a.label = true)
    (ha : Survivable X s a) (hi : i < maxContacts) (hin : s.dev.inUse i = true)
    (hrd : s.dev.ctx.active = true → (s.dev.record i).state ≠ .idle →
      (s.dev.record i).main = rd.main ∧ (s.dev.record i).rq = rd.rq) :
    (s.step X a).dev.heading rd i = s.dev.heading rd i := by
  cases a with
  | step label => exact h.restorable.step_heading hgo ha hi hin hrd
  | powerLoss label k created =>
    exact h.restorable.powerLoss_heading_of_finishing hgo ha.1 ha.2.1 ha.2.2 created hi hin hrd

/-- A finishing run keeps the heading of a contact. -/
theorem Sound.run_heading (h : Sound s) (labels : List PowerLabel)
    (hgo : ∀ a ∈ labels, Finishing a.label = true)
    (hsurvivable : StepsMeet (RotationRun.step X) (Survivable X) s labels) (hi : i < maxContacts)
    (hin : s.dev.inUse i = true) (hmakes : MakesQueues X i rd.main rd.rq s labels) :
    (runFrom (RotationRun.step X) s labels).dev.heading rd i = s.dev.heading rd i := by
  induction labels generalizing s with
  | nil => rfl
  | cons a labels ih =>
    rw [runFrom_cons, ih (h.step hsurvivable.1) (fun b hb => hgo b (List.mem_cons_of_mem _ hb))
      hsurvivable.2 (h.step_inUse hsurvivable.1 hi hin) hmakes.2]
    exact h.step_heading (hgo a List.mem_cons_self) hsurvivable.1 hi hin hmakes.1

/-- Two finishing runs that make the same queues end with the same credentials, when they begin
with the same heading. -/
theorem Finishes.credentials {t u : RotationRun} (ht : Sound t) (hu : Sound u)
    {recovered uninterrupted : List PowerLabel} (hrecovered : Finishes X t recovered)
    (huninterrupted : Finishes X u uninterrupted) (hi : i < maxContacts)
    (htin : t.dev.inUse i = true) (huin : u.dev.inUse i = true)
    (hheading : t.dev.heading rd i = u.dev.heading rd i)
    (htmakes : MakesQueues X i rd.main rd.rq t recovered)
    (humakes : MakesQueues X i rd.main rd.rq u uninterrupted) :
    (runFrom (RotationRun.step X) t recovered).dev.credentials i =
      (runFrom (RotationRun.step X) u uninterrupted).dev.credentials i := by
  have hends : ∀ u : RotationRun, u.dev.Settled → u.dev.credentials i = u.dev.heading rd i :=
    fun u hsettled => hsettled.heading.symm
  rw [hends _ hrecovered.settled, hends _ huninterrupted.settled,
    ht.run_heading recovered hrecovered.finishing hrecovered.survivable hi htin htmakes,
    hu.run_heading uninterrupted huninterrupted.finishing huninterrupted.survivable hi huin humakes,
    hheading]

end RotationRun

end SimpleGo
