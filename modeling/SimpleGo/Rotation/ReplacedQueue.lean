import SimpleGo.Rotation.Announcements
import SimpleGo.Rotation.Pass
import SimpleGo.Rotation.Stranding

/-!
# The queue that a QADD replaces

A contact looks up the replaced queue of a QADD among the addresses it sends to, so the QADD
must name the address it was told last: in its confirmation, or in the QUSE of its last
rotation. The device puts that address together from the server of its own queue and the
sender id kept with the contact's reply queue, and both change at the live switch only. A
rotation that ends without one, or that moves a contact without a QUSE, leaves them behind.
-/

namespace SimpleGo

open Lib

/-- The last QUSE to a contact. -/
def lastQuse (i : ℕ) : List RotationEvent → Option (List UInt8)
  | [] => none
  | .added j :: history => if j = i then none else lastQuse i history
  | .quseSent j _ payload :: history => if j = i then some payload else lastQuse i history
  | _ :: history => lastQuse i history

/-- The queue info in the last confirmation to a contact. -/
def lastConfirmation (i : ℕ) : List RotationEvent → Option (List UInt8)
  | [] => none
  | .added j :: history => if j = i then none else lastConfirmation i history
  | .confirmationSent j info :: history => if j = i then some info else lastConfirmation i history
  | _ :: history => lastConfirmation i history

/-- The address a contact was told to send to: by its last QUSE, and by its confirmation before
the first one. -/
def announcedAddr (i : ℕ) (history : List RotationEvent) : Option SndQAddr :=
  match lastQuse i history with
  | some payload => quseAddr payload
  | none => (lastConfirmation i history).bind infoAddr

/-- Being moved announces nothing. -/
theorem announcedAddr_migrated (i : ℕ) (slots : List ℕ) (history : List RotationEvent) :
    announcedAddr i (slots.map .migrated ++ history) = announcedAddr i history := by
  induction slots with
  | nil => rfl
  | cons j slots ih => exact ih

/-- A contact that waits for its new queue has been sent a QUSE. -/
theorem lastQuse_isSome_of_told {i : ℕ} {history : List RotationEvent}
    (h : (told history i).isSome = true) : (lastQuse i history).isSome = true := by
  induction history with
  | nil => cases h
  | cons event history ih =>
    cases event with
    | quseSent j rd payload =>
      rw [told] at h
      rw [lastQuse]
      split
      · rfl
      · rename_i hne
        rw [if_neg hne] at h
        exact ih h
    | added j | migrated j =>
      rw [told] at h
      split at h
      · cases h
      · rename_i hne
        simp only [lastQuse, hne, if_false]
        exact ih h
    | started | confirmationSent _ _ | qaddSent _ _ => exact ih h

namespace RotationDevice

variable (dev : RotationDevice)

/-- The address of a contact's reply queue, as the device puts it together. -/
def replyQueueAddr (i : ℕ) : SndQAddr :=
  queueAddr dev.ourQueue.serverHost dev.ourQueue.serverPort dev.ourQueue.serverKeyHash
    (dev.replyQueues i).sndId (dev.replyQueues i).sndIdLen.toNat

/-- The address of a new queue on the target server. -/
def targetAddr (q : NewQueue) : SndQAddr :=
  queueAddr dev.ctx.targetHost dev.ctx.targetPort.toNat dev.ctx.targetKeyHash q.sndId
    q.sndIdLen.toNat

/-- Every QADD that is built during a rotation replaces the queue its contact was told. -/
def ReplacesAnnounced : Prop :=
  dev.ctx.active = true → ∀ i size payload, dev.rotationBuildQaddPayload i size = some payload →
    ∀ addr, announcedAddr i dev.history = some addr → qaddReplaced payload = some addr

end RotationDevice

/-- The condition: rotations switch before they end, and no contact that was told an address is
moved without a QUSE. -/
def SwitchesTold (X : Sodium) (dev : RotationDevice) (label : RotationLabel) : Prop :=
  SwitchesFirst X dev label ∧
    match label with
    | .appStep env => dev.SwitchesNow env → ∀ i ∈ dev.activeSlots,
      (announcedAddr i dev.history).isSome = true → (told dev.history i).isSome = true
    | _ => True

instance (X : Sodium) (dev : RotationDevice) :
    (label : RotationLabel) → Decidable (SwitchesTold X dev label)
  | .appStep env => inferInstanceAs (Decidable (SwitchesFirst X dev (.appStep env) ∧
    (dev.SwitchesNow env → ∀ i ∈ dev.activeSlots, _)))
  | .start idx srv => inferInstanceAs (Decidable (SwitchesFirst X dev (.start idx srv) ∧ True))
  | .contactMsg idx env =>
    inferInstanceAs (Decidable (SwitchesFirst X dev (.contactMsg idx env) ∧ True))
  | .replyMsg idx legacy env =>
    inferInstanceAs (Decidable (SwitchesFirst X dev (.replyMsg idx legacy env) ∧ True))
  | .addContact keys ids rqKeys rqIds =>
    inferInstanceAs (Decidable (SwitchesFirst X dev (.addContact keys ids rqKeys rqIds) ∧ True))
  | .confirm idx => inferInstanceAs (Decidable (SwitchesFirst X dev (.confirm idx) ∧ True))
  | .abort => inferInstanceAs (Decidable (SwitchesFirst X dev .abort ∧ True))
  | .reboot created => inferInstanceAs (Decidable (SwitchesFirst X dev (.reboot created) ∧ True))

/-! ### The invariant -/

/-- What the device knows of the address a contact was told: it is that of the new queue while
the contact waits for it, and else that of its reply queue. -/
structure Knows (dev : RotationDevice) (i : ℕ) (addr : SndQAddr) : Prop where
  idx_lt : i < maxContacts
  inUse : (dev.contacts i).isActive = true
  waits : ∀ rd, told dev.history i = some rd → addr = dev.targetAddr rd.main
  uses : told dev.history i = none → (dev.replyQueues i).valid = true → addr = dev.replyQueueAddr i

/-- The addresses that the contacts were told are known. -/
structure AddressInv (dev : RotationDevice) : Prop where
  pending : AllPending dev
  port : 0 ≤ dev.ourQueue.serverPort ∧ dev.ourQueue.serverPort < 65536
  fits : dev.ctx.active = true → ∀ i < maxContacts, (dev.record i).main.sndIdLen ≤ 24
  target : dev.ctx.active = true → (cString dev.ctx.targetHost).length ≤ 63
  rqFits : ∀ i < maxContacts, (dev.replyQueues i).sndIdLen.toNat ≤ 24
  known : ∀ i addr, announcedAddr i dev.history = some addr → Knows dev i addr

/-- The sender's side of a reply queue is the same, or the queue is empty. -/
def KeepsSender (q q' : ReplyQueue) : Prop :=
  q' = .zero ∨ (q'.valid = q.valid ∧ q'.sndId = q.sndId ∧ q'.sndIdLen = q.sndIdLen)

variable {X : Sodium} {dev d : RotationDevice}

/-- A step that announces nothing and switches nothing. -/
theorem AddressInv.frame (h : AddressInv dev) (hpending : AllPending d)
    (hannounced : ∀ i, announcedAddr i d.history = announcedAddr i dev.history)
    (htold : ∀ i, told d.history i = told dev.history i)
    (hcontacts : ∀ i < maxContacts, (dev.contacts i).isActive = true →
      (d.contacts i).isActive = true)
    (hqueues : ∀ i < maxContacts, KeepsSender (dev.replyQueues i) (d.replyQueues i))
    (hourQueue : d.ourQueue = dev.ourQueue)
    (hctx : d.ctx.active = true → ∃ n, d.ctx = { dev.ctx with contactsDone := n })
    (hrecords : d.ctx.active = true → ∀ i < maxContacts, (dev.record i).main.sndIdLen ≤ 24 →
      (d.record i).main.sndIdLen ≤ 24) : AddressInv d := by
  have hactive : d.ctx.active = true → dev.ctx.active = true := fun h => by
    obtain ⟨n, hn⟩ := hctx h
    rwa [hn] at h
  refine ⟨hpending, by rw [hourQueue]; exact h.port,
    fun ha i hi => hrecords ha i hi (h.fits (hactive ha) i hi), fun ha => ?_, fun i hi => ?_,
    fun i addr haddr => ?_⟩
  · obtain ⟨n, hn⟩ := hctx ha
    rw [hn]
    exact h.target (hactive ha)
  · rcases hqueues i hi with hzero | ⟨-, -, hlen⟩
    · rw [hzero]
      decide
    · rw [hlen]
      exact h.rqFits i hi
  · rw [hannounced] at haddr
    have hknown := h.known i addr haddr
    refine ⟨hknown.idx_lt, hcontacts i hknown.idx_lt hknown.inUse, fun rd hrd => ?_,
      fun hno hvalid => ?_⟩
    · obtain ⟨n, hn⟩ := hctx (hpending i rd hrd).active
      rw [htold] at hrd
      rw [RotationDevice.targetAddr, hn]
      exact hknown.waits rd hrd
    · rw [htold] at hno
      rcases hqueues i hknown.idx_lt with hzero | ⟨hsame, hid, hlen⟩
      · rw [hzero] at hvalid
        cases hvalid
      · rw [RotationDevice.replyQueueAddr, hourQueue, hid, hlen]
        exact hknown.uses hno (hsame ▸ hvalid)

/-- The same, for a step that leaves the credentials alone. -/
theorem AddressInv.same (h : AddressInv dev) (hpending : AllPending d)
    (hhistory : ∀ i, announcedAddr i d.history = announcedAddr i dev.history ∧
      told d.history i = told dev.history i)
    (hsame : RotationDevice.SameCredentials dev d)
    (hctx : d.ctx.active = true → ∃ n, d.ctx = { dev.ctx with contactsDone := n })
    (hrecords : d.ctx.active = true → ∀ i < maxContacts, (dev.record i).main.sndIdLen ≤ 24 →
      (d.record i).main.sndIdLen ≤ 24) : AddressInv d :=
  h.frame hpending (fun i => (hhistory i).1) (fun i => (hhistory i).2)
    (fun i _ hin => by rw [hsame.contacts, hin])
    (fun i _ => .inr (by rw [hsame.replyQueues]; exact ⟨rfl, rfl, rfl⟩)) hsame.ourQueue hctx hrecords

/-- A contact that a QADD is built for does not wait, so the QADD names what it was told. -/
theorem AddressInv.replacesAnnounced (h : AddressInv dev) : dev.ReplacesAnnounced := by
  intro hactive i size payload hbuilt addr haddr
  obtain ⟨hi, hstate, hvalid, -⟩ := RotationDevice.rotationBuildQaddPayload_eq hbuilt
  have hno : told dev.history i = none := by
    cases htold : told dev.history i with
    | none => rfl
    | some rd => exact absurd (h.pending i rd htold).state (by simp [mayBeTold, hstate])
  have hport : dev.ourQueue.serverPort % 65536 = dev.ourQueue.serverPort :=
    Int.emod_eq_of_lt h.port.1 h.port.2
  rw [RotationDevice.qaddReplaced_built hbuilt (h.fits hactive i hi) (h.rqFits i hi), hport]
  exact congrArg some ((h.known i addr haddr).uses hno hvalid).symm

/-! ### The loop -/

/-- A changed record. -/
theorem AddressInv.updateRecord (h : AddressInv dev) (hsome : dev.records.isSome = true) {idx : ℕ}
    {rd : RotationContactData} (hpending : AllPending (dev.updateRecord idx rd))
    (hfits : (dev.record idx).main.sndIdLen ≤ 24 → rd.main.sndIdLen ≤ 24) :
    AddressInv (dev.updateRecord idx rd) := by
  refine h.same hpending (fun i => ?_) ⟨RotationDevice.updateRecord_contacts ..,
    RotationDevice.updateRecord_replyQueues .., RotationDevice.updateRecord_ourQueue ..⟩
    (fun _ => ⟨dev.ctx.contactsDone, RotationDevice.updateRecord_ctx ..⟩) fun _ i _ hfit => ?_
  · rw [RotationDevice.updateRecord_history]
    exact ⟨rfl, rfl⟩
  · by_cases hsame : i = idx
    · subst hsame
      rw [RotationDevice.updateRecord_record_self hsome]
      exact hfits hfit
    · rw [RotationDevice.updateRecord_record_of_ne hsame]
      exact hfit

/-- A mark. -/
theorem AddressInv.markState (h : AddressInv dev) (hsome : dev.records.isSome = true) {idx : ℕ}
    (hidx : idx < maxContacts) {state : RotationContactState}
    (hpending : AllPending (dev.markState idx state)) : AddressInv (dev.markState idx state) := by
  rw [RotationDevice.markState_eq hidx] at hpending ⊢
  exact h.updateRecord hsome hpending id

/-- A QUSE: the contact has been told the address of its new queue. -/
theorem AddressInv.noteQuse (h : AddressInv dev) {idx : ℕ} (hat : dev.AtContact idx)
    {payload : List UInt8} (hbuilt : dev.rotationBuildQusePayload idx 128 = some payload)
    (hpending : AllPending (dev.note (.quseSent idx (dev.record idx) payload))) :
    AddressInv (dev.note (.quseSent idx (dev.record idx) payload)) := by
  set d := dev.note (.quseSent idx (dev.record idx) payload) with hd
  refine ⟨hpending, h.port, h.fits, h.target, h.rqFits, fun i addr haddr => ?_⟩
  by_cases hsame : idx = i
  · subst hsame
    have hlast : lastQuse idx d.history = some payload := if_pos rfl
    have htold : told d.history idx = some (dev.record idx) := if_pos rfl
    rw [announcedAddr, hlast] at haddr
    have hquse := RotationDevice.quseAddr_built hbuilt (h.fits hat.active idx hat.idx_lt)
    refine ⟨hat.idx_lt, hat.inUse, fun rd hrd => ?_, fun hno => ?_⟩
    · obtain rfl := Option.some.inj (htold.symm.trans hrd)
      exact Option.some.inj (haddr.symm.trans hquse)
    · exact absurd (htold.symm.trans hno) (by simp)
  · have hannounced : announcedAddr i d.history = announcedAddr i dev.history := by
      have hlast : lastQuse i d.history = lastQuse i dev.history := if_neg hsame
      rw [announcedAddr, announcedAddr, hlast]
      rfl
    have htold : told d.history i = told dev.history i := if_neg hsame
    have hknown := h.known i addr (hannounced ▸ haddr)
    exact ⟨hknown.idx_lt, hknown.inUse, fun rd hrd => hknown.waits rd (htold ▸ hrd),
      fun hno => hknown.uses (htold ▸ hno)⟩

/-- A QADD announces nothing by itself. -/
theorem AddressInv.noteQadd (h : AddressInv dev) (idx : ℕ) (payload : List UInt8)
    (hpending : AllPending (dev.note (.qaddSent idx payload))) :
    AddressInv (dev.note (.qaddSent idx payload)) :=
  h.same hpending (fun _ => ⟨rfl, rfl⟩) ⟨rfl, rfl, rfl⟩ (fun _ => ⟨dev.ctx.contactsDone, rfl⟩)
    fun _ _ _ => id

/-- Every small step of a pass keeps the addresses known. -/
theorem AddressInv.kept {env : ℕ → ContactEnv} (hcond : SwitchesFirst X dev (.appStep env))
    (idx : ℕ) : RotationDevice.KeptAt X (env idx) idx fun d => PassInv dev env d ∧ AddressInv d := by
  intro d d' hat h hs
  have hpass := PassInv.kept hcond idx d d' hat h.1 hs
  refine ⟨hpass, ?_⟩
  have hpending := hpass.pending
  cases hs with
  | record rd hrecord => exact h.2.updateRecord hat.allocated hpending hrecord.evolves.fits
  | qaddSkipped _ => exact h.2.markState hat.allocated hat.idx_lt hpending
  | qaddUnconfirmed payload _ _ => exact h.2.noteQadd idx payload hpending
  | qaddSent payload hstate hbuilt =>
    have hnoted := (h.1.noteQadd idx payload).pending
    exact (h.2.noteQadd idx payload hnoted).markState hat.allocated hat.idx_lt hpending
  | quseSkipped _ _ => exact h.2.markState hat.allocated hat.idx_lt hpending
  | quseUnconfirmed payload _ _ _ hbuilt => exact h.2.noteQuse hat hbuilt hpending
  | quseSent payload hstate hloads hsend hbuilt =>
    have hswitch := h.1.notSwitched hcond hat hstate hloads (by simp [hsend])
    have hnoted := (h.1.noteQuse hat hstate hswitch payload).pending
    exact (h.2.noteQuse hat hbuilt hnoted).markState hat.allocated hat.idx_lt hpending

/-! ### The live switch -/

/-- The reply queue of a contact that is moved has the address of its new queue. -/
theorem rotationComplete_replyQueueAddr {i : ℕ} (h : dev.migrates i = true)
    (hhost : (cString dev.ctx.targetHost).length ≤ 63) :
    dev.rotationComplete.replyQueueAddr i = dev.targetAddr (dev.record i).main := by
  obtain ⟨e2ePublic, e2ePrivate, hour⟩ := dev.switched_ourQueue
  have hqueue : dev.rotationComplete.replyQueues i =
      (dev.replyQueues i).migrate (dev.contacts i) (dev.record i) := by
    rw [RotationDevice.rotationComplete_replyQueues, RotationDevice.migrateCredentials_replyQueues h]
  rw [RotationDevice.replyQueueAddr, RotationDevice.targetAddr,
    RotationDevice.rotationComplete_ourQueue, hour, hqueue, queueAddr, queueAddr,
    RotationDevice.cString_strncpy_host _ hhost]
  simp only [ReplyQueue.migrate, Int.toNat_natCast, copyId_take]

/-- After a live switch that moves contacts with a QUSE, every address is that of a reply
queue. -/
theorem AddressInv.rotationComplete (h : AddressInv dev) (hactive : dev.ctx.active = true)
    (hpending : AllPending dev.rotationComplete)
    (hmoved : ∀ i ∈ dev.activeSlots, dev.migrates i = true)
    (htold : ∀ i ∈ dev.activeSlots, (announcedAddr i dev.history).isSome = true →
      (told dev.history i).isSome = true) : AddressInv dev.rotationComplete := by
  obtain ⟨e2ePublic, e2ePrivate, hour⟩ := dev.switched_ourQueue
  have hport : dev.rotationComplete.ourQueue.serverPort = dev.ctx.targetPort.toNat := by
    rw [RotationDevice.rotationComplete_ourQueue, hour]
  have hrotation : dev.rotationComplete.ctx.active = true →
      dev.rotationComplete.ctx = dev.ctx ∧
        ∀ i, dev.rotationComplete.record i = dev.record i := by
    intro hafter
    rcases dev.rotationComplete_rotation with hno | ⟨hctx, hrecords⟩
    · exact absurd (hafter.symm.trans hno) (by simp)
    · exact ⟨hctx, fun i => by rw [RotationDevice.record, RotationDevice.record, hrecords]⟩
  refine ⟨hpending, ?_, fun hafter i hi => ?_, fun hafter => ?_, fun i hi => ?_,
    fun i addr haddr => ?_⟩
  · rw [hport]
    have hlt := dev.ctx.targetPort.toNat_lt
    omega
  · rw [(hrotation hafter).2]
    exact h.fits hactive i hi
  · rw [(hrotation hafter).1]
    exact h.target hactive
  · rw [RotationDevice.rotationComplete_replyQueues]
    cases hmig : dev.migrates i with
    | true =>
      have hfit := h.fits hactive i hi
      rw [RotationDevice.migrateCredentials_replyQueues hmig]
      exact hfit
    | false =>
      rw [RotationDevice.migrateCredentials_replyQueues_of_not hmig]
      exact h.rqFits i hi
  · rw [RotationDevice.rotationComplete_history, announcedAddr_migrated] at haddr
    have hknown := h.known i addr haddr
    have hslot := RotationDevice.mem_activeSlots.2 ⟨hknown.idx_lt, hknown.inUse⟩
    have hmig := hmoved i hslot
    have hnone : told dev.rotationComplete.history i = none := by
      rw [RotationDevice.rotationComplete_history, told_migrated,
        if_pos (RotationDevice.mem_migratedSlots.2 hmig)]
    refine ⟨hknown.idx_lt, ?_, fun rd hrd => absurd (hnone.symm.trans hrd) (by simp),
      fun _ _ => ?_⟩
    · rw [RotationDevice.rotationComplete_contacts, RotationDevice.migrateCredentials_isActive]
      exact hknown.inUse
    · obtain ⟨rd, hrd⟩ := Option.isSome_iff_exists.1 (htold i hslot (by rw [haddr]; rfl))
      rw [rotationComplete_replyQueueAddr hmig (h.target hactive), hknown.waits rd hrd,
        (h.pending i rd hrd).main]

/-- A pass of the loop. -/
theorem AddressInv.appRotationStep (h : AddressInv dev) (hsaved : dev.Saved)
    {env : ℕ → ContactEnv} (hcond : SwitchesTold X dev (.appStep env)) :
    AddressInv (dev.appRotationStep X env) := by
  have hpending := (appRotationStep_forward hsaved h.pending hcond.1).1
  rcases RotationDevice.appRotationStep_spec hsaved.rotation.allocated
    (AddressInv.kept (X := X) hcond.1) ⟨PassInv.start h.pending env, h⟩ with
    ⟨d, logged, hd, -, -, heq⟩ | ⟨hnow, d, hd, hquiet, hmoved, heq⟩
  · rw [heq] at hpending ⊢
    exact hd.2.same hpending (fun _ => ⟨rfl, rfl⟩) ⟨rfl, rfl, rfl⟩
      (fun _ => ⟨d.ctx.contactsDone, rfl⟩) fun _ _ _ => id
  · have hctx : d.ctx = dev.ctx := by rw [hquiet.same]
    have hcontacts : d.contacts = dev.contacts := by rw [hquiet.same]
    have hhistory : d.history = dev.history := by rw [hquiet.same]
    have hslots : d.activeSlots = dev.activeSlots := by
      rw [RotationDevice.activeSlots, hcontacts, RotationDevice.activeSlots]
    have hlogged : AddressInv { d with completeLogged := true } :=
      hd.2.same (hd.2.pending.congr rfl rfl rfl rfl fun _ => rfl) (fun _ => ⟨rfl, rfl⟩)
        ⟨rfl, rfl, rfl⟩ (fun _ => ⟨d.ctx.contactsDone, rfl⟩) fun _ _ _ => id
    rw [heq] at hpending ⊢
    refine hlogged.rotationComplete ?_ hpending ?_ ?_
    · change d.ctx.active = true
      rw [hctx]
      exact hnow.1
    · intro i hi
      exact hmoved i (hslots ▸ hi)
    · intro i hi hannounced
      change (announcedAddr i d.history).isSome = true at hannounced
      change (told d.history i).isSome = true
      rw [hhistory] at hannounced ⊢
      exact hcond.2 hnow i (hslots ▸ hi) hannounced

/-! ### The other steps -/

/-- A message. -/
theorem AddressInv.msgStep (X : Sodium) (h : AddressInv dev)
    (hrecords : dev.ctx.active = true → dev.records.isSome = true) {taken : Prop} {idx : ℕ}
    (hs : RotationDevice.MsgStep taken idx dev d) (hpending : AllPending d) : AddressInv d := by
  obtain ⟨hhistory, hrotation⟩ := hs.rotation (X := X) hrecords
  refine h.same hpending (fun i => by rw [hhistory]; exact ⟨rfl, rfl⟩) (.msgStep hrecords hs)
    (fun hactive => ?_) fun hactive i _ => ?_
  · rcases hrotation with hno | ⟨hctx, -, -⟩
    · exact absurd (hactive.symm.trans hno) (by simp)
    · exact hctx
  · rcases hrotation with hno | ⟨-, -, hevolves⟩
    · exact absurd (hactive.symm.trans hno) (by simp)
    · exact (hevolves i).fits

/-- A rotation starts when nobody waits. -/
theorem AddressInv.rotationStart (h : AddressInv dev) (idx : UInt8) (srv : SmpServer) :
    AddressInv (dev.rotationStart idx srv).1 := by
  have hpending := (rotationStart_forward h.pending idx srv).1
  rw [RotationDevice.rotationStart] at hpending ⊢
  split
  · exact h
  · rename_i hguard
    have hno : dev.ctx.active = false := by
      rw [not_or] at hguard
      simpa using hguard.1
    rw [if_neg hguard] at hpending
    split
    · rename_i hnobody
      rw [if_pos hnobody] at hpending
      refine h.same hpending (fun i => ?_) ⟨RotationDevice.smpServersSetActive_contacts idx,
        RotationDevice.smpServersSetActive_replyQueues idx,
        RotationDevice.smpServersSetActive_ourQueue idx⟩
        (fun _ => ⟨dev.ctx.contactsDone, RotationDevice.smpServersSetActive_ctx idx⟩)
        fun _ i _ => ?_
      · rw [RotationDevice.smpServersSetActive_history]
        exact ⟨rfl, rfl⟩
      · rw [RotationDevice.record, RotationDevice.record,
          RotationDevice.smpServersSetActive_records]
        exact id
    · rename_i hsome
      rw [if_neg hsome] at hpending
      refine ⟨hpending, h.port, fun _ i _ => ?_, fun _ => ?_, h.rqFits, fun i addr haddr => ?_⟩
      · change (0 : UInt8) ≤ 24
        decide
      · change (cString (strncpy 63 (cString srv.host))).length ≤ 63
        rw [cString_strncpy 63 _ (zero_notMem_cString srv.host)]
        exact List.length_take_le ..
      · have hknown := h.known i addr haddr
        have hnone := h.pending.told_eq_none hno i
        exact ⟨hknown.idx_lt, hknown.inUse, fun rd hrd => absurd (hnone.symm.trans hrd) (by simp),
          hknown.uses⟩

/-- The sender id of a new reply queue fits. -/
theorem createdReplyQueue_sndIdLen_le (X : Sodium) (keys : NewQueueKeys)
    (ids : Option NewQueueIds) :
    (RotationDevice.createdReplyQueue X keys ids).sndIdLen.toNat ≤ 24 := by
  cases ids with
  | none => exact Nat.zero_le _
  | some ids =>
    simp only [RotationDevice.createdReplyQueue]
    split <;> exact Nat.min_le_right _ _

/-- A new contact has been told nothing yet. -/
theorem AddressInv.addContact (h : AddressInv dev) (keys : ContactDevice.ContactKeys)
    (ids : ContactDevice.QueueIds) (rqKeys : NewQueueKeys) (rqIds : Option NewQueueIds) :
    AddressInv (dev.addContact X keys ids rqKeys rqIds) := by
  have hpending := (addContact_forward (X := X) h.pending keys ids rqKeys rqIds).1
  rcases dev.addContact_cases (X := X) keys ids rqKeys rqIds with heq | ⟨slot, -, hfree, heq⟩
  · rw [heq]
    exact h
  · rw [heq] at hpending ⊢
    set added : RotationDevice := { dev with
      contacts := Function.update dev.contacts slot (ContactDevice.createdContact keys ids)
      replyQueues := Function.update dev.replyQueues slot
        (RotationDevice.createdReplyQueue X rqKeys rqIds)
      history := .added slot :: dev.history }
    rw [added.saveNewContact_eq] at hpending ⊢
    refine ⟨hpending, h.port, h.fits, h.target, fun i hi => ?_, fun i addr haddr => ?_⟩
    · change (Function.update dev.replyQueues slot _ i).sndIdLen.toNat ≤ 24
      by_cases hsame : i = slot
      · rw [hsame, Function.update_self]
        exact createdReplyQueue_sndIdLen_le X rqKeys rqIds
      · rw [Function.update_of_ne hsame]
        exact h.rqFits i hi
    · by_cases hsame : slot = i
      · have hquse : lastQuse i added.history = none := if_pos hsame
        have hconf : lastConfirmation i added.history = none := if_pos hsame
        change announcedAddr i added.history = some addr at haddr
        rw [announcedAddr, hquse, hconf] at haddr
        cases haddr
      · have hannounced : announcedAddr i added.history = announcedAddr i dev.history := by
          have hquse : lastQuse i added.history = lastQuse i dev.history := if_neg hsame
          have hconf : lastConfirmation i added.history = lastConfirmation i dev.history :=
            if_neg hsame
          rw [announcedAddr, announcedAddr, hquse, hconf]
        have htold : told added.history i = told dev.history i := if_neg hsame
        have hknown := h.known i addr (hannounced ▸ haddr)
        have hcontact : added.contacts i = dev.contacts i := Function.update_of_ne (Ne.symm hsame) ..
        have hqueue : added.replyQueues i = dev.replyQueues i :=
          Function.update_of_ne (Ne.symm hsame) ..
        refine ⟨hknown.idx_lt, ?_, fun rd hrd => hknown.waits rd (htold ▸ hrd),
          fun hno hvalid => ?_⟩
        · change (added.contacts i).isActive = true
          rw [hcontact]
          exact hknown.inUse
        · change (added.replyQueues i).valid = true at hvalid
          change addr = added.replyQueueAddr i
          rw [RotationDevice.replyQueueAddr, hqueue]
          exact hknown.uses (htold ▸ hno) (hqueue ▸ hvalid)

/-- A confirmation tells the address of the contact's reply queue, until the first QUSE. -/
theorem AddressInv.sendAgentConfirmation (h : AddressInv dev) (hsaved : dev.Saved) (idx : ℕ) :
    AddressInv (dev.sendAgentConfirmation idx) := by
  rw [RotationDevice.sendAgentConfirmation]
  split
  · rename_i hslot
    split
    · exact h
    · rename_i info hinfo
      set d := dev.note (.confirmationSent idx info)
      refine ⟨h.pending.congr rfl rfl rfl rfl fun _ => rfl, h.port, h.fits, h.target, h.rqFits,
        fun i addr haddr => ?_⟩
      have hknows : announcedAddr i dev.history = some addr → Knows d i addr := fun hbefore => by
        have hknown := h.known i addr hbefore
        exact ⟨hknown.idx_lt, hknown.inUse, hknown.waits, hknown.uses⟩
      cases hquse : lastQuse i dev.history with
      | some payload =>
        refine hknows ?_
        have hafter : lastQuse i d.history = some payload := hquse
        rw [announcedAddr, hafter] at haddr
        rw [announcedAddr, hquse]
        exact haddr
      | none =>
        have hafter : lastQuse i d.history = none := hquse
        have hno : told dev.history i = none := by
          by_contra hsome
          have htold := lastQuse_isSome_of_told (Option.isSome_iff_ne_none.2 hsome)
          rw [hquse] at htold
          cases htold
        by_cases hsame : idx = i
        · subst hsame
          have hconf : lastConfirmation idx d.history = some info := if_pos rfl
          rw [announcedAddr, hafter, hconf] at haddr
          change infoAddr info = some addr at haddr
          refine ⟨hslot.1, hslot.2, fun rd hrd => absurd (hno.symm.trans hrd) (by simp),
            fun _ hvalid => ?_⟩
          have hvalid' : (dev.replyQueues idx).valid = true := hvalid
          have hfits := h.rqFits idx hslot.1
          obtain ⟨encoded, hencoded⟩ := Option.isSome_iff_exists.1
            (RotationDevice.replyQueueEncodeInfo_isSome hslot.1 hvalid' hsaved.credentials.ourValid
              hfits)
          rw [RotationDevice.confirmationInfo, if_pos hvalid', hencoded, Option.some_or] at hinfo
          obtain rfl := Option.some.inj hinfo
          rw [RotationDevice.infoAddr_encoded hencoded hfits] at haddr
          exact (Option.some.inj haddr).symm
        · refine hknows ?_
          have hconf : lastConfirmation i d.history = lastConfirmation i dev.history := if_neg hsame
          rw [announcedAddr, hafter, hconf] at haddr
          rw [announcedAddr, hquse]
          exact haddr
  · exact h

/-- A key learned from a message leaves the addresses alone. -/
theorem AddressInv.learnPeerKey (h : AddressInv dev) (idx : ℕ) (newPeer : Option (Bytes 32)) :
    AddressInv (dev.learnPeerKey idx newPeer) := by
  cases newPeer with
  | none => exact h
  | some key =>
    refine h.frame (learnPeerKey_pending h.pending idx (some key)).1 (fun _ => rfl) (fun _ => rfl)
      (fun _ _ hin => hin) (fun i _ => .inr ?_) rfl (fun _ => ⟨dev.ctx.contactsDone, rfl⟩)
      fun _ _ _ => id
    change (Function.update dev.replyQueues idx _ i).valid = _ ∧
      (Function.update dev.replyQueues idx _ i).sndId = _ ∧
      (Function.update dev.replyQueues idx _ i).sndIdLen = _
    by_cases hsame : i = idx
    · subst hsame
      rw [Function.update_self]
      exact ⟨rfl, rfl, rfl⟩
    · rw [Function.update_of_ne hsame]
      exact ⟨rfl, rfl, rfl⟩

/-- A start-up finds the addresses in NVS. -/
theorem AddressInv.boot (h : AddressInv dev) (hsaved : dev.Saved) (created : OurQueue) :
    AddressInv (dev.boot created) := by
  refine h.frame (boot_forward hsaved h.pending created).1
    (fun i => by rw [RotationDevice.boot_history]) (fun i => by rw [RotationDevice.boot_history])
    (fun i hi hin => by rw [hsaved.boot_isActive created hi, hin]) (fun i hi => ?_)
    (hsaved.boot_ourQueue created) (fun hactive => ?_) fun hactive i hi => ?_
  · rw [hsaved.boot_replyQueue created hi]
    split
    · exact .inr ⟨rfl, rfl, rfl⟩
    · exact .inl rfl
  · rw [hsaved.boot_active created] at hactive
    exact ⟨dev.ctx.contactsDone, by rw [hsaved.boot_ctx created, if_pos hactive]⟩
  · rw [hsaved.boot_active created] at hactive
    rw [(hsaved.boot_record created hactive hi).main]
    exact id

/-- Every step that meets the condition keeps the addresses known. -/
theorem AddressInv.step (h : AddressInv dev) (hsaved : dev.Saved) {label : RotationLabel}
    (hcond : SwitchesTold X dev label) : AddressInv (dev.step X label) := by
  have hpending := (step_forward hsaved h.pending label hcond.1).1
  cases label with
  | start idx srv => exact h.rotationStart idx srv
  | appStep env => exact h.appRotationStep hsaved hcond
  | contactMsg idx env =>
    exact h.msgStep X hsaved.rotation.allocated (dev.contactMsg_step X idx env) hpending
  | replyMsg idx legacy env =>
    obtain ⟨learned, hlearned, hs⟩ := dev.replyMsg_step X idx legacy env
    rcases hlearned with rfl | ⟨hi, hvalid, rfl⟩
    · exact h.msgStep X hsaved.rotation.allocated hs hpending
    · exact (h.learnPeerKey idx env.newPeer).msgStep X
        (hsaved.learnPeerKey hi hvalid env.newPeer).rotation.allocated hs hpending
  | addContact keys ids rqKeys rqIds => exact h.addContact keys ids rqKeys rqIds
  | confirm idx => exact h.sendAgentConfirmation hsaved idx
  | abort =>
    exact h.same hpending (fun _ => ⟨rfl, rfl⟩) ⟨rfl, rfl, rfl⟩ (fun hactive => by cases hactive)
      fun hactive => by cases hactive
  | reboot created => exact h.boot hsaved created

/-- In every run of a device from its first start that meets the condition, every QADD replaces
the queue that its contact was told last. -/
theorem qadd_replaces_announced (X : Sodium) (ourQueue : OurQueue) (hvalid : ourQueue.valid = true)
    (hport : 0 ≤ ourQueue.serverPort ∧ ourQueue.serverPort < 65536) (serverCount : ℕ)
    (labels : List RotationLabel)
    (hcond : StepsMeet (RotationDevice.step X) (SwitchesTold X)
      (RotationDevice.fresh ourQueue serverCount) labels) :
    (runFrom (RotationDevice.step X) (RotationDevice.fresh ourQueue serverCount)
      labels).ReplacesAnnounced := by
  have hstart : AddressInv (RotationDevice.fresh ourQueue serverCount) := {
    pending := fun i rd htold => by cases htold
    port := hport
    fits := fun hactive => by cases hactive
    target := fun hactive => by cases hactive
    rqFits := fun i _ => Nat.zero_le _
    known := fun i addr haddr => by cases haddr }
  have hstep : ∀ (d : RotationDevice) label, (d.Saved ∧ AddressInv d) → SwitchesTold X d label →
      ((d.step X label).Saved ∧ AddressInv (d.step X label)) := fun d label h hc =>
    ⟨h.1.step label, h.2.step h.1 hc⟩
  have hrun := hcond.invariant hstep ⟨RotationDevice.fresh_saved hvalid serverCount, hstart⟩
  exact hrun.2.replacesAnnounced

/-- A rotation of one contact with a confirmation, and a second rotation up to its QADD. -/
def rotationAgain : List RotationLabel :=
  [sampleAdd 20, .confirm 0, .start 1 sampleTarget, samplePass 30, samplePass 30,
    .contactMsg 0 (sampleMsg sampleQkey false), samplePass 30, samplePass 30,
    .contactMsg 0 (sampleMsg [0x51] true), .start 0 ⟨strncpy 63 [0x61], 5223, filled 32 11⟩,
    samplePass 40]

set_option maxRecDepth 4000 in
/-- The second QADD replaces the queue of the first QUSE. -/
theorem qadd_replaces_announced_sample :
    (runFrom (RotationDevice.step sampleSodium) (RotationDevice.fresh sampleOurQueue 2)
      rotationAgain).ReplacesAnnounced :=
  qadd_replaces_announced sampleSodium sampleOurQueue rfl (by decide) 2 rotationAgain
    (by decide)

/-- The same, when the first rotation is to another port of the same host. -/
def rotationSameHost : List RotationLabel :=
  [sampleAdd 20, .confirm 0, .start 1 ⟨strncpy 63 [0x61], 443, filled 32 12⟩, samplePass 30,
    samplePass 30, .contactMsg 0 (sampleMsg sampleQkey false), samplePass 30,
    .contactMsg 0 (sampleMsg [0x51] true), .start 1 sampleTarget, samplePass 40]

set_option maxRecDepth 4000 in
/-- No live switch is made, and the next QADD replaces a queue the contact no longer uses. -/
theorem qadd_replaces_announced_counterexample :
    ¬ (runFrom (RotationDevice.step sampleSodium) (RotationDevice.fresh sampleOurQueue 2)
      rotationSameHost).ReplacesAnnounced := by
  intro hreplaces
  set dev := runFrom (RotationDevice.step sampleSodium) (RotationDevice.fresh sampleOurQueue 2)
    rotationSameHost with hdev
  have hactive : dev.ctx.active = true := by decide
  have hbuilt : (dev.rotationBuildQaddPayload 0 512).isSome = true := by decide
  have hannounced : (announcedAddr 0 dev.history).isSome = true := by decide
  have hother : (dev.rotationBuildQaddPayload 0 512).bind qaddReplaced ≠
      announcedAddr 0 dev.history := by decide
  obtain ⟨payload, hpayload⟩ := Option.isSome_iff_exists.1 hbuilt
  obtain ⟨addr, haddr⟩ := Option.isSome_iff_exists.1 hannounced
  rw [hpayload, haddr, Option.bind_some] at hother
  exact hother (hreplaces hactive 0 512 payload hpayload addr haddr)

end SimpleGo
