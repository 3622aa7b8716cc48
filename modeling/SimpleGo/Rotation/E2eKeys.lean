import SimpleGo.Rotation.Announcements
import SimpleGo.Rotation.MessageLoss
import SimpleGo.Rotation.Pass
import SimpleGo.Rotation.Persistence

/-!
# The E2E keys of the contact queues

Every contact's new queue has an E2E key of its own, which its QADD advertises. The device
decrypts what arrives on any contact's queue with one key, and the live switch sets it to that
of the first contact it moves. So the keys match as long as the other contacts moved with it
were told the same key, that is, in practice, while one contact takes part in a rotation.
-/

namespace SimpleGo

open Lib

/-- The key in the last QADD to a contact in this rotation. -/
def lastQadd (i : ℕ) : List RotationEvent → Option (List UInt8)
  | [] => none
  | .started :: _ => none
  | .added j :: history => if j = i then none else lastQadd i history
  | .qaddSent j payload :: history => if j = i then qaddDhKey payload else lastQadd i history
  | _ :: history => lastQadd i history

/-- The key that was advertised for the queue a contact was moved to last. -/
def keyInUse (i : ℕ) : List RotationEvent → Option (List UInt8)
  | [] => none
  | .added j :: history => if j = i then none else keyInUse i history
  | .migrated j :: history => if j = i then lastQadd i history else keyInUse i history
  | _ :: history => keyInUse i history

/-- Being moved advertises nothing. -/
theorem lastQadd_migrated (i : ℕ) (slots : List ℕ) (history : List RotationEvent) :
    lastQadd i (slots.map .migrated ++ history) = lastQadd i history := by
  induction slots with
  | nil => rfl
  | cons j slots ih => exact ih

/-- The contacts that are moved use the key they advertised last. -/
theorem keyInUse_migrated (i : ℕ) (slots : List ℕ) (history : List RotationEvent) :
    keyInUse i (slots.map .migrated ++ history) =
      if i ∈ slots then lastQadd i history else keyInUse i history := by
  induction slots with
  | nil => rfl
  | cons j slots ih =>
    rw [List.map_cons, List.cons_append, keyInUse, lastQadd_migrated, ih]
    by_cases hj : j = i
    · subst hj
      rw [if_pos rfl, if_pos List.mem_cons_self]
    · simp only [if_neg hj, List.mem_cons, Ne.symm hj, false_or]

namespace RotationDevice

variable {X : Sodium} {dev d : RotationDevice}

/-- What a message on a contact's queue is decrypted with is the private key of the key that
was advertised for that queue. -/
def KeysMatch (X : Sodium) (dev : RotationDevice) (label : RotationLabel) : Prop :=
  match label with
  | .contactMsg i env => ∀ key, keyInUse i dev.history = some key → ∀ k,
      .e2eDecrypt k ∈ (dev.handleMsg X (.contactMsg i env)).2 → (X.boxPublic k).toList = key
  | _ => True

/-- The condition on a live switch: the contacts that were sent a QADD have the E2E key of the
first contact in use. -/
def SharedE2eKey (dev : RotationDevice) : RotationLabel → Prop
  | .appStep env => dev.SwitchesNow env → ∀ j ∈ dev.activeSlots,
      (lastQadd j dev.history).isSome = true → ∀ i ∈ dev.activeSlots.head?,
        (dev.record j).main.e2ePublic = (dev.record i).main.e2ePublic
  | _ => True

instance (dev : RotationDevice) : (label : RotationLabel) → Decidable (dev.SharedE2eKey label)
  | .appStep env => inferInstanceAs (Decidable (dev.SwitchesNow env → ∀ j ∈ dev.activeSlots,
      (lastQadd j dev.history).isSome = true → ∀ i ∈ dev.activeSlots.head?, _))
  | .start .. | .contactMsg .. | .replyMsg .. | .addContact .. | .confirm _ | .abort | .reboot _ =>
    isTrue trivial

/-! ### The invariant -/

/-- What was advertised is in the records of the rotation, and the keys in use match. -/
structure E2eInv (X : Sodium) (dev : RotationDevice) : Prop where
  keyed : dev.ctx.active = true → ∀ i < maxContacts, (dev.record i).state ≠ .idle →
    (dev.record i).Keyed X
  fits : dev.ctx.active = true → ∀ i < maxContacts, (dev.record i).main.sndIdLen ≤ 24
  advertised : dev.ctx.active = true → ∀ i key, lastQadd i dev.history = some key →
    i < maxContacts ∧ (dev.record i).state ≠ .idle ∧ (dev.record i).main.e2ePublic.toList = key
  inUse : ∀ i key, keyInUse i dev.history = some key →
    i < maxContacts ∧ (dev.contacts i).isActive = true ∧
      (X.boxPublic dev.ourQueue.e2ePrivate).toList = key

/-- A step that advertises nothing and switches nothing. -/
theorem E2eInv.frame (h : E2eInv X dev) (hlast : ∀ i, lastQadd i d.history = lastQadd i dev.history)
    (huse : ∀ i, keyInUse i d.history = keyInUse i dev.history)
    (hcontacts : ∀ i < maxContacts, (dev.contacts i).isActive = true →
      (d.contacts i).isActive = true)
    (hkey : d.ourQueue.e2ePrivate = dev.ourQueue.e2ePrivate)
    (hrotation : d.ctx.active = true → dev.ctx.active = true ∧
      ∀ i < maxContacts, Evolves X (dev.record i) (d.record i)) : E2eInv X d where
  keyed hactive i hi hstate := by
    obtain ⟨hbefore, hevolves⟩ := hrotation hactive
    exact (hevolves i hi).keyed hstate (h.keyed hbefore i hi)
  fits hactive i hi := by
    obtain ⟨hbefore, hevolves⟩ := hrotation hactive
    exact (hevolves i hi).fits (h.fits hbefore i hi)
  advertised hactive i key hqadd := by
    obtain ⟨hbefore, hevolves⟩ := hrotation hactive
    rw [hlast] at hqadd
    obtain ⟨hi, hstate, hpublic⟩ := h.advertised hbefore i key hqadd
    obtain ⟨hstate', hmain⟩ := (hevolves i hi).settled hstate
    exact ⟨hi, hstate', by rw [hmain, hpublic]⟩
  inUse i key hused := by
    rw [huse] at hused
    obtain ⟨hi, hactive, hpublic⟩ := h.inUse i key hused
    exact ⟨hi, hcontacts i hi hactive, by rw [hkey, hpublic]⟩

/-- A change of one record. -/
theorem E2eInv.updateRecord (h : E2eInv X dev) (hsome : dev.records.isSome = true) {idx : ℕ}
    {rd : RotationContactData} (hevolves : Evolves X (dev.record idx) rd) :
    E2eInv X (dev.updateRecord idx rd) := by
  refine h.frame (fun i => by rw [updateRecord_history]) (fun i => by rw [updateRecord_history])
    (fun i _ hactive => by rw [updateRecord_contacts, hactive]) (by rw [updateRecord_ourQueue])
    fun hactive => ⟨by rwa [updateRecord_ctx] at hactive, fun i _ => ?_⟩
  by_cases hsame : i = idx
  · subst hsame
    rw [updateRecord_record_self hsome]
    exact hevolves
  · rw [updateRecord_record_of_ne hsame]
    exact Evolves.refl X _

/-- A QADD that is sent. -/
theorem E2eInv.noteQadd (h : E2eInv X dev) {idx : ℕ} (hidx : idx < maxContacts)
    (hactive : dev.ctx.active = true) (hstate : (dev.record idx).state = .queueCreated)
    {payload : List UInt8} (hbuilt : dev.rotationBuildQaddPayload idx 512 = some payload) :
    E2eInv X (dev.note (.qaddSent idx payload)) := by
  refine ⟨h.keyed, h.fits, fun _ i key hqadd => ?_, h.inUse⟩
  have hsent : lastQadd i (dev.note (.qaddSent idx payload)).history =
      if idx = i then qaddDhKey payload else lastQadd i dev.history := rfl
  rw [hsent] at hqadd
  split at hqadd
  · rename_i hsame
    subst hsame
    rw [qaddDhKey_built hbuilt (h.fits hactive idx hidx)] at hqadd
    refine ⟨hidx, ?_, Option.some.inj hqadd⟩
    change (dev.record idx).state ≠ _
    rw [hstate]
    simp
  · exact h.advertised hactive i key hqadd

/-- The loop keeps the invariant at every contact. -/
theorem E2eInv.keptAt (env : ContactEnv) (idx : ℕ) : KeptAt X env idx (E2eInv X) := by
  intro d d' hat h hs
  have hmark : ∀ d : RotationDevice, E2eInv X d → d.records.isSome = true →
      (d.record idx).state ≠ .idle → ∀ state, state ≠ .idle → E2eInv X (d.markState idx state) := by
    intro d h hsome hstate state hnext
    rw [markState_eq hat.idx_lt]
    exact h.updateRecord hsome (.of_main rfl hstate hnext)
  have hnote : ∀ rd payload, E2eInv X (d.note (.quseSent idx rd payload)) := fun rd payload =>
    h.frame (fun _ => rfl) (fun _ => rfl) (fun _ _ h => h) rfl fun hactive =>
      ⟨hactive, fun _ _ => Evolves.refl X _⟩
  cases hs with
  | record rd hrecord => exact h.updateRecord hat.allocated hrecord.evolves
  | qaddSkipped hstate => exact hmark d h hat.allocated (by simp [hstate]) _ (by simp)
  | qaddUnconfirmed payload hstate hbuilt => exact h.noteQadd hat.idx_lt hat.active hstate hbuilt
  | qaddSent payload hstate hbuilt =>
    refine hmark _ (h.noteQadd hat.idx_lt hat.active hstate hbuilt) hat.allocated ?_ _ (by simp)
    change (d.record idx).state ≠ _
    rw [hstate]
    simp
  | quseSkipped hstate _ => exact hmark d h hat.allocated (by simp [hstate]) _ (by simp)
  | quseUnconfirmed payload _ _ _ _ => exact hnote _ _
  | quseSent payload hstate _ _ _ =>
    refine hmark _ (hnote _ _) hat.allocated ?_ _ (by simp)
    change (d.record idx).state ≠ _
    rw [hstate]
    simp

/-! ### The live switch -/

/-- The key of the first contact is that of every contact that was sent a QADD. -/
theorem E2eInv.rotationComplete (h : E2eInv X dev) (hactive : dev.ctx.active = true)
    (hmoved : ∀ i ∈ dev.activeSlots, dev.migrates i = true)
    (hshared : ∀ j ∈ dev.activeSlots, (lastQadd j dev.history).isSome = true →
      ∀ i ∈ dev.activeSlots.head?, (dev.record j).main.e2ePublic = (dev.record i).main.e2ePublic) :
    E2eInv X dev.rotationComplete := by
  have hslots : dev.migratedSlots = dev.activeSlots := by
    rw [migratedSlots, activeSlots]
    refine List.filter_congr fun i hi => ?_
    cases hin : (dev.contacts i).isActive with
    | true => exact hmoved i (mem_activeSlots.2 ⟨List.mem_range.1 hi, hin⟩)
    | false => simp [migrates, hin]
  have hrecord : ∀ i, dev.rotationComplete.ctx.active = true →
      dev.rotationComplete.record i = dev.record i ∧
        ∀ i, lastQadd i dev.rotationComplete.history = lastQadd i dev.history := by
    intro i hafter
    rcases dev.rotationComplete_rotation with hno | ⟨-, hrecords⟩
    · exact absurd (hafter.symm.trans hno) (by simp)
    · refine ⟨by rw [record, record, hrecords], fun i => ?_⟩
      rw [rotationComplete_history, lastQadd_migrated]
  refine ⟨fun hafter i hi => ?_, fun hafter i hi => ?_, fun hafter i key => ?_, fun i key => ?_⟩
  · rw [(hrecord i hafter).1]
    exact h.keyed hactive i hi
  · rw [(hrecord i hafter).1]
    exact h.fits hactive i hi
  · rw [(hrecord i hafter).1, (hrecord i hafter).2]
    exact h.advertised hactive i key
  · rw [rotationComplete_history, keyInUse_migrated, rotationComplete_contacts,
      migrateCredentials_isActive, hslots]
    split
    · rename_i hi
      intro hqadd
      obtain ⟨hlt, -, hpublic⟩ := h.advertised hactive i key hqadd
      refine ⟨hlt, (mem_activeSlots.1 hi).2, ?_⟩
      obtain ⟨first, hfirst⟩ : ∃ first, dev.activeSlots.head? = some first :=
        Option.isSome_iff_exists.1 (by rw [List.isSome_head?]; simp [List.ne_nil_of_mem hi])
      have hmem := List.mem_of_head? hfirst
      have hstate : (dev.record first).state ≠ .idle := by
        have hmig := (migrates_iff.1 (hmoved first hmem)).2.2
        rw [getContactState_eq (mem_activeSlots.1 hmem).1] at hmig
        rcases hmig with hs | hs <;> simp [hs]
      have hkeyed := h.keyed hactive first (mem_activeSlots.1 hmem).1 hstate
      have hsame := hshared i hi (by rw [hqadd]; rfl) first hfirst
      rw [rotationComplete_ourQueue, switched_e2ePrivate (hslots ▸ hfirst), ← hkeyed, ← hsame,
        hpublic]
    · rename_i hi
      intro hused
      obtain ⟨hlt, hin, -⟩ := h.inUse i key hused
      exact absurd (mem_activeSlots.2 ⟨hlt, hin⟩) hi

/-- A pass of the loop. -/
theorem E2eInv.appRotationStep (h : E2eInv X dev) (hsaved : dev.Saved) {env : ℕ → ContactEnv}
    (hcond : dev.SharedE2eKey (.appStep env)) : E2eInv X (dev.appRotationStep X env) := by
  have hlogged : ∀ {d : RotationDevice}, E2eInv X d → ∀ logged,
      E2eInv X { d with completeLogged := logged } := fun h logged =>
    h.frame (fun _ => rfl) (fun _ => rfl) (fun _ _ h => h) rfl fun hactive =>
      ⟨hactive, fun _ _ => Evolves.refl X _⟩
  rcases appRotationStep_spec hsaved.rotation.allocated
    (fun idx => E2eInv.keptAt (X := X) (env idx) idx) h with
    ⟨d, logged, hd, -, -, heq⟩ | ⟨hnow, d, hd, hquiet, hmoved, heq⟩
  · rw [heq]
    exact hlogged hd logged
  · have hctx : d.ctx = dev.ctx := by rw [hquiet.same]
    have hcontacts : d.contacts = dev.contacts := by rw [hquiet.same]
    have hhistory : d.history = dev.history := by rw [hquiet.same]
    have hslots : d.activeSlots = dev.activeSlots := by rw [activeSlots, hcontacts, activeSlots]
    have hpublic : ∀ i ∈ dev.activeSlots,
        (d.record i).main.e2ePublic = (dev.record i).main.e2ePublic := fun i hi => by
      rw [hquiet.passed i hi]
    rw [heq]
    refine (hlogged hd true).rotationComplete (by rw [← hnow.1]; exact congrArg _ hctx) ?_ ?_
    · intro i hi
      exact hmoved i (hslots ▸ hi)
    · intro j hj hqadd i hi
      change j ∈ d.activeSlots at hj
      change i ∈ d.activeSlots.head? at hi
      change (lastQadd j d.history).isSome = true at hqadd
      change (d.record j).main.e2ePublic = (d.record i).main.e2ePublic
      rw [hslots] at hj hi
      rw [hhistory] at hqadd
      rw [hpublic j hj, hpublic i (List.mem_of_head? hi)]
      exact hcond hnow j hj hqadd i hi

/-! ### The other steps -/

/-- A message. -/
theorem E2eInv.msgStep (h : E2eInv X dev)
    (hrecords : dev.ctx.active = true → dev.records.isSome = true) {taken : Prop} {idx : ℕ}
    (hs : MsgStep taken idx dev d) : E2eInv X d := by
  obtain ⟨hhistory, hrotation⟩ := hs.rotation (X := X) hrecords
  have hsame := SameCredentials.msgStep hrecords hs
  refine h.frame (fun i => by rw [hhistory]) (fun i => by rw [hhistory])
    (fun i _ hactive => by rw [hsame.contacts, hactive]) (by rw [hsame.ourQueue]) fun hactive => ?_
  rcases hrotation with hno | ⟨⟨n, hctx⟩, -, hevolves⟩
  · exact absurd (hactive.symm.trans hno) (by simp)
  · exact ⟨by rwa [hctx] at hactive, fun i _ => hevolves i⟩

/-- A rotation that starts has advertised nothing. -/
theorem E2eInv.rotationStart (h : E2eInv X dev) (idx : UInt8) (srv : SmpServer) :
    E2eInv X (dev.rotationStart idx srv).1 := by
  rw [RotationDevice.rotationStart]
  split
  · exact h
  · split
    · exact h.frame (fun i => by rw [smpServersSetActive_history])
        (fun i => by rw [smpServersSetActive_history])
        (fun i _ hin => by rw [smpServersSetActive_contacts, hin])
        (by rw [smpServersSetActive_ourQueue]) fun hactive => by
          rw [smpServersSetActive_ctx] at hactive
          exact ⟨hactive, fun i _ => by
            rw [record, record, smpServersSetActive_records]
            exact Evolves.refl X _⟩
    · refine ⟨fun _ i _ hstate => absurd rfl hstate, fun _ i _ => ?_, fun _ i key hqadd => ?_,
        h.inUse⟩
      · change (0 : UInt8) ≤ 24
        decide
      · cases hqadd

/-- A new contact has been advertised nothing. -/
theorem E2eInv.addContact (h : E2eInv X dev) (keys : ContactDevice.ContactKeys)
    (ids : ContactDevice.QueueIds) (rqKeys : NewQueueKeys) (rqIds : Option NewQueueIds) :
    E2eInv X (dev.addContact X keys ids rqKeys rqIds) := by
  rcases dev.addContact_cases keys ids rqKeys rqIds with heq | ⟨slot, -, hfree, heq⟩
  · rw [heq]
    exact h
  · rw [heq]
    set added : RotationDevice := { dev with
      contacts := Function.update dev.contacts slot (ContactDevice.createdContact keys ids)
      replyQueues := Function.update dev.replyQueues slot (createdReplyQueue X rqKeys rqIds)
      history := .added slot :: dev.history }
    have hadded : E2eInv X added := by
      refine ⟨h.keyed, h.fits, fun hactive i key hqadd => ?_, fun i key hused => ?_⟩
      · change (if slot = i then none else lastQadd i dev.history) = some key at hqadd
        split at hqadd
        · cases hqadd
        · exact h.advertised hactive i key hqadd
      · change (if slot = i then none else keyInUse i dev.history) = some key at hused
        split at hused
        · cases hused
        · rename_i hne
          obtain ⟨hi, hin, hpublic⟩ := h.inUse i key hused
          have hcontact : added.contacts i = dev.contacts i :=
            Function.update_of_ne (Ne.symm hne) ..
          exact ⟨hi, by rw [hcontact, hin], hpublic⟩
    rw [added.saveNewContact_eq]
    exact hadded.frame (fun _ => rfl) (fun _ => rfl) (fun _ _ h => h) rfl fun hactive =>
      ⟨hactive, fun _ _ => Evolves.refl X _⟩

/-- A start-up. -/
theorem E2eInv.boot (h : E2eInv X dev) (hsaved : dev.Saved) (created : OurQueue) :
    E2eInv X (dev.boot created) := by
  refine h.frame (fun i => by rw [boot_history]) (fun i => by rw [boot_history])
    (fun i hi hin => by rw [hsaved.boot_isActive created hi, hin])
    (by rw [hsaved.boot_ourQueue created]) fun hactive => ?_
  rw [hsaved.boot_active created] at hactive
  exact ⟨hactive, fun i hi => (hsaved.boot_record created hactive hi).evolves⟩

/-- Every step whose live switch meets the condition keeps the invariant. -/
theorem E2eInv.step (h : E2eInv X dev) (hsaved : dev.Saved) {label : RotationLabel}
    (hcond : dev.SharedE2eKey label) : E2eInv X (dev.step X label) := by
  cases label with
  | start idx srv => exact h.rotationStart idx srv
  | appStep env => exact h.appRotationStep hsaved hcond
  | contactMsg idx env => exact h.msgStep hsaved.rotation.allocated (dev.contactMsg_step X idx env)
  | replyMsg idx legacy env =>
    obtain ⟨learned, hlearned, hs⟩ := dev.replyMsg_step X idx legacy env
    rcases hlearned with rfl | ⟨hi, hvalid, rfl⟩
    · exact h.msgStep hsaved.rotation.allocated hs
    · refine E2eInv.msgStep ?_ (hsaved.learnPeerKey hi hvalid env.newPeer).rotation.allocated hs
      rw [learnPeerKey_eq]
      exact h.frame (fun _ => rfl) (fun _ => rfl) (fun _ _ h => h) rfl fun hactive =>
        ⟨hactive, fun _ _ => Evolves.refl X _⟩
  | addContact keys ids rqKeys rqIds => exact h.addContact keys ids rqKeys rqIds
  | confirm idx =>
    rw [RotationDevice.step, sendAgentConfirmation]
    split
    · split
      · exact h
      · exact h.frame (fun _ => rfl) (fun _ => rfl) (fun _ _ h => h) rfl fun hactive =>
          ⟨hactive, fun _ _ => Evolves.refl X _⟩
    · exact h
  | abort =>
    exact h.frame (fun _ => rfl) (fun _ => rfl) (fun _ _ h => h) rfl fun hactive => by cases hactive
  | reboot created => exact h.boot hsaved created

/-! ### Messages -/

/-- The plaintext of the E2E layer is not decrypted by it again. -/
theorem e2eDecrypt_notMem_process (plain : Plaintext) (env : AgentEnv) (k : Bytes 32) :
    .e2eDecrypt k ∉ smpAgentProcessMessage plain env := by
  intro hmem
  rcases smpAgentProcessMessage_cases plain env with h | ⟨body, h⟩
  · rw [h] at hmem
    cases hmem
  · rw [h] at hmem
    rcases extractChatText_cases body env.jsonAlloc with hc | ⟨_, _, hc⟩ | ⟨_, hc⟩ | hc <;>
      rw [hc] at hmem <;> simp at hmem

/-- A message on a contact's queue is decrypted with the E2E key of our queue. -/
theorem e2eDecrypt_handleMsg {idx : ℕ} {env : MsgEnv} {k : Bytes 32}
    (h : .e2eDecrypt k ∈ (dev.handleMsg X (.contactMsg idx env)).2) :
    k = dev.ourQueue.e2ePrivate := by
  have hserver : .e2eDecrypt k ∉ if env.plainAlloc then [MsgEffect.smpDecrypt] else [] := by
    split <;> simp
  rw [handleMsg] at h
  split at h
  · rw [appHandleContactQueueMsg] at h
    split at h
    · cases h
    · split at h
      · simp at h
      · dsimp only at h
        rw [contactQueueEffects_eq, List.mem_append, List.mem_singleton, readEffects] at h
        rcases h with h | h
        · split at h
          · exact absurd h hserver
          · rcases List.mem_cons.1 h with heq | h
            · exact MsgEffect.e2eDecrypt.inj heq
            · split at h
              · exact absurd h hserver
              · exact absurd h (e2eDecrypt_notMem_process _ _ k)
        · cases h
  · cases h

/-- In every run from a device without a rotation, whose live switches move contacts that were
told one key, every message on a contact's new queue is decrypted with the private key of the
key advertised for that queue. -/
theorem rotated_e2e_keys_match (X : Sodium) (dev : RotationDevice) (hsaved : dev.Saved)
    (hidle : dev.ctx.active = false) (hhistory : dev.history = []) (labels : List RotationLabel)
    (hcond : StepsMeet (RotationDevice.step X) SharedE2eKey dev labels) :
    StepsMeet (RotationDevice.step X) (KeysMatch X) dev labels := by
  have hstart : E2eInv X dev := by
    have hno : dev.ctx.active ≠ true := by simp [hidle]
    refine ⟨fun h => absurd h hno, fun h => absurd h hno, fun h => absurd h hno, fun i key h => ?_⟩
    rw [hhistory] at h
    cases h
  have hstep : ∀ (d : RotationDevice) label, (d.Saved ∧ E2eInv X d) → d.SharedE2eKey label →
      ((d.step X label).Saved ∧ E2eInv X (d.step X label)) := fun d label h hc =>
    ⟨h.1.step label, h.2.step h.1 hc⟩
  refine hcond.invariant_step hstep (fun d label h _ => ?_) ⟨hsaved, hstart⟩
  cases label with
  | contactMsg i env =>
    intro key hused k hmem
    rw [e2eDecrypt_handleMsg hmem]
    exact (h.2.inUse i key hused).2.2
  | _ => trivial

/-- A whole rotation of one contact, with its QTEST and a chat message. -/
def rotationWithChat : List RotationLabel :=
  rotationToQuse ++ [samplePass 30, .contactMsg 0 (sampleMsg [0x51] true),
    .contactMsg 0 (sampleMsg sampleChat false)]

set_option maxRecDepth 4000 in
/-- A rotation of one contact uses the key it advertised. -/
theorem rotated_e2e_keys_match_sample :
    StepsMeet (RotationDevice.step sampleSodium) (KeysMatch sampleSodium) sampleRotation
      rotationWithChat :=
  rotated_e2e_keys_match sampleSodium sampleRotation (fresh_saved rfl 2) rfl rfl _
    (by decide)

end RotationDevice

/-- A rotation of two contacts, with the QTEST of the second one and a chat message. -/
def rotationOfTwo : List RotationLabel :=
  [sampleAdd 20, sampleAdd 22, .start 1 sampleTarget, samplePass 30, samplePass 30, samplePass 30,
    samplePass 30, .contactMsg 0 (sampleMsg sampleQkey false),
    .contactMsg 1 (sampleMsg sampleQkey false), samplePass 30, samplePass 30, samplePass 30,
    .contactMsg 1 (sampleMsg [0x51] true)]

set_option maxRecDepth 4000 in
/-- The chat message of the second contact is decrypted with the key of the first one. -/
theorem rotated_e2e_keys_counterexample :
    ¬ StepsMeet (RotationDevice.step sampleSodium) (RotationDevice.KeysMatch sampleSodium)
      sampleRotation (rotationOfTwo ++ [.contactMsg 1 (sampleMsg sampleChat false)]) := by
  rw [stepsMeet_append]
  rintro ⟨-, hmatch, -⟩
  have hused : keyInUse 1 (runFrom (RotationDevice.step sampleSodium) sampleRotation
      rotationOfTwo).history = some (filled 32 31).toList := by decide
  have hmem : .e2eDecrypt (filled 32 30) ∈ ((runFrom (RotationDevice.step sampleSodium)
      sampleRotation rotationOfTwo).handleMsg sampleSodium
        (.contactMsg 1 (sampleMsg sampleChat false))).2 := by decide
  exact absurd (hmatch _ hused _ hmem) (by decide)

end SimpleGo
