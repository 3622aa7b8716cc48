import SimpleGo.Rotation.MessageLoss
import SimpleGo.Rotation.Persistence

/-!
# A contact that has been sent QUSE

The peer writes to the new queue once it has read QUSE, so the keys of that queue must stay in
the rotation's record until `rotation_complete` has copied them. The code drops the records
when every contact is DONE or IDLE, and it counts a contact as DONE at the first MSG after its
QUSE, with or without a live switch. While our queues are already on the target server there
is no live switch at all.
-/

namespace SimpleGo

open Lib

/-- The new queues that a contact has been sent a QUSE for, until they are in use. -/
def told : List RotationEvent → ℕ → Option RotationContactData
  | [], _ => none
  | event :: history, i =>
    match event with
    | .quseSent j rd _ => if j = i then some rd else told history i
    | .migrated j => if j = i then none else told history i
    | .added j => if j = i then none else told history i
    | _ => told history i

/-- A live switch ends the wait of the contacts that it moves. -/
theorem told_migrated (slots : List ℕ) (history : List RotationEvent) (i : ℕ) :
    told (slots.map .migrated ++ history) i = if i ∈ slots then none else told history i := by
  induction slots with
  | nil => simp
  | cons j slots ih =>
    rw [List.map_cons, List.cons_append, told]
    by_cases hsame : j = i
    · simp [hsame]
    · rw [if_neg hsame, ih]
      simp [List.mem_cons, Ne.symm hsame]

/-- The record of a contact has the keys of these queues. -/
def RotationDevice.HoldsKeys (dev : RotationDevice) (i : ℕ) (rd : RotationContactData) : Prop :=
  ∃ rs, dev.records = some rs ∧ (rs i).main = rd.main ∧ (rs i).rq = rd.rq

/-- The active credentials of a contact and of its reply queue are those of these queues. -/
structure RotationDevice.Installed (dev : RotationDevice) (i : ℕ) (rd : RotationContactData) :
    Prop where
  recipientId : (dev.contacts i).recipientId.toList.take rd.main.rcvIdLen.toNat =
    rd.main.rcvId.toList.take rd.main.rcvIdLen.toNat
  recipientIdLen : (dev.contacts i).recipientIdLen = rd.main.rcvIdLen
  rcvAuthSecret : (dev.contacts i).rcvAuthSecret = rd.main.rcvAuthPrivate
  rcvDhSecret : (dev.contacts i).rcvDhSecret = rd.main.rcvDhPrivate
  srvDhPublic : (dev.contacts i).srvDhPublic = rd.main.srvDhPublic
  haveSrvDh : (dev.contacts i).haveSrvDh = 1
  rqRcvId : (dev.replyQueues i).rcvId.toList.take rd.rq.rcvIdLen.toNat =
    rd.rq.rcvId.toList.take rd.rq.rcvIdLen.toNat
  rqRcvIdLen : (dev.replyQueues i).rcvIdLen = rd.rq.rcvIdLen.toNat
  rqRcvAuthPrivate : (dev.replyQueues i).rcvAuthPrivate = rd.rq.rcvAuthPrivate
  rqE2ePrivate : (dev.replyQueues i).e2ePrivate = rd.rq.e2ePrivate
  rqSharedSecret : (dev.replyQueues i).sharedSecret = rd.rq.sharedSecret
  rqValid : (dev.replyQueues i).valid = true

/-- A step strands nobody: what a contact has been sent a QUSE for stays in its record until it
is in use. -/
structure KeepsKeys (X : Sodium) (dev : RotationDevice) (label : RotationLabel) : Prop where
  held : ∀ i rd, told (dev.step X label).history i = some rd → (dev.step X label).HoldsKeys i rd
  kept : ∀ i rd, told dev.history i = some rd →
    (∃ rd', told (dev.step X label).history i = some rd' ∧ rd'.main = rd.main ∧ rd'.rq = rd.rq) ∨
      (dev.step X label).Installed i rd

/-! ### The condition -/

/-- A pass of the loop can write a QUSE to this contact. -/
def writesQuse (rd : RotationContactData) (env : ContactEnv) : Bool :=
  env.peerLoads && env.send != .failed &&
    (rd.state == .keySent ||
      rd.state == .qkeyReceived && env.connects && rd.mainPeer.hasPeerSenderKey && env.keyAccepted)

/-- A contact that may have been sent a QUSE in this rotation. -/
def mayBeTold (state : RotationContactState) : Prop :=
  state = .keySent ∨ state = .quseSent ∨ state = .done

instance (state : RotationContactState) : Decidable (mayBeTold state) :=
  inferInstanceAs (Decidable (_ ∨ _))

/-- No QUSE is sent once our queues are on the target server, and the rotation ends only
after that. -/
def SwitchesFirst (X : Sodium) (dev : RotationDevice) : RotationLabel → Prop
  | .appStep env => dev.ctx.active = true → dev.onTarget = true →
    ∀ i ∈ dev.activeSlots, writesQuse (dev.record i) (env i) = false
  | .contactMsg idx env => dev.takenQtest X (.contactMsg idx env) = some idx →
    dev.othersQtestDone idx → dev.onTarget = true
  | .replyMsg idx legacy env => dev.takenQtest X (.replyMsg idx legacy env) = some idx →
    dev.othersQtestDone idx → dev.onTarget = true
  | .abort => dev.ctx.active = true → dev.onTarget = true ∨
    ∀ i ∈ dev.activeSlots, ¬ mayBeTold (dev.record i).state
  | _ => True

instance (X : Sodium) (dev : RotationDevice) :
    (label : RotationLabel) → Decidable (SwitchesFirst X dev label)
  | .appStep _ => inferInstanceAs (Decidable (_ → _ → ∀ i ∈ dev.activeSlots, _))
  | .contactMsg .. => inferInstanceAs (Decidable (_ → _ → _))
  | .replyMsg .. => inferInstanceAs (Decidable (_ → _ → _))
  | .abort => inferInstanceAs (Decidable (_ → _ ∨ ∀ i ∈ dev.activeSlots, _))
  | .start .. | .addContact .. | .confirm _ | .reboot _ => isTrue trivial

/-! ### The invariant -/

/-- What holds of a contact between its QUSE and the live switch. -/
structure Pending (dev : RotationDevice) (i : ℕ) (rd : RotationContactData) : Prop where
  idx_lt : i < maxContacts
  inUse : (dev.contacts i).isActive = true
  active : dev.ctx.active = true
  allocated : dev.records.isSome = true
  notSwitched : dev.onTarget = false
  main : (dev.record i).main = rd.main
  rq : (dev.record i).rq = rd.rq
  state : mayBeTold (dev.record i).state

/-- Every contact that waits for its new queues is in that state. -/
def AllPending (dev : RotationDevice) : Prop :=
  ∀ i rd, told dev.history i = some rd → Pending dev i rd

/-- Every contact that waited still does, for the same queues. -/
def StillTold (dev dev' : RotationDevice) : Prop :=
  ∀ i rd, told dev.history i = some rd →
    ∃ rd', told dev'.history i = some rd' ∧ rd'.main = rd.main ∧ rd'.rq = rd.rq

/-- Every contact that waited still does, or has its new queues in use. -/
def Forward (dev dev' : RotationDevice) : Prop :=
  AllPending dev' ∧ ∀ i rd, told dev.history i = some rd →
    (∃ rd', told dev'.history i = some rd' ∧ rd'.main = rd.main ∧ rd'.rq = rd.rq) ∨
      dev'.Installed i rd

variable {X : Sodium} {dev dev' : RotationDevice}

/-- Waiting contacts still wait when nothing is noted. -/
theorem StillTold.of_history (h : dev'.history = dev.history) : StillTold dev dev' :=
  fun _ rd htold => ⟨rd, h.symm ▸ htold, rfl, rfl⟩

/-- The wait goes on over several steps. -/
theorem StillTold.trans {dev'' : RotationDevice} (h : StillTold dev dev')
    (h' : StillTold dev' dev'') : StillTold dev dev'' := by
  intro i rd htold
  obtain ⟨rd', htold', hmain, hrq⟩ := h i rd htold
  obtain ⟨rd'', htold'', hmain', hrq'⟩ := h' i rd' htold'
  exact ⟨rd'', htold'', hmain'.trans hmain, hrq'.trans hrq⟩

/-- Nobody waits while no rotation is active. -/
theorem AllPending.told_eq_none (h : AllPending dev) (hno : dev.ctx.active = false) (i : ℕ) :
    told dev.history i = none := by
  cases htold : told dev.history i with
  | none => rfl
  | some rd => exact absurd ((h i rd htold).active.symm.trans hno) (by simp)

/-- Waits that go on. -/
theorem StillTold.forward (h : StillTold dev dev') (hpending : AllPending dev') :
    Forward dev dev' := ⟨hpending, fun i rd htold => .inl (h i rd htold)⟩

/-- Where nobody waits, nothing can go wrong. -/
theorem Forward.of_none (h : ∀ i, told dev.history i = none)
    (hhistory : ∀ i, told dev'.history i = told dev.history i) : Forward dev dev' :=
  ⟨fun i rd htold => absurd (((hhistory i).symm.trans htold).symm.trans (h i)) (by simp),
    fun i rd htold => absurd (htold.symm.trans (h i)) (by simp)⟩

/-- Nobody waits once our queues are on the target server. -/
theorem AllPending.none_of_onTarget (h : AllPending dev) (htarget : dev.onTarget = true) (i : ℕ) :
    told dev.history i = none := by
  cases htold : told dev.history i with
  | none => rfl
  | some rd => exact absurd ((h i rd htold).notSwitched.symm.trans htarget) (by simp)

/-- The waits depend on the contacts in use, the context, our queue and the records. -/
theorem AllPending.frame (h : AllPending dev)
    (hcontacts : ∀ i < maxContacts, (dev.contacts i).isActive = true →
      (dev'.contacts i).isActive = true)
    (hctx : dev.ctx.active = true → dev'.ctx.active = true)
    (htarget : dev.ctx.active = true → dev'.onTarget = dev.onTarget)
    (hallocated : dev.records.isSome = true → dev'.records.isSome = true)
    (hrecords : ∀ i < maxContacts, dev.ctx.active = true →
      (dev'.record i).main = (dev.record i).main ∧ (dev'.record i).rq = (dev.record i).rq ∧
        (mayBeTold (dev.record i).state → mayBeTold (dev'.record i).state))
    (hhistory : ∀ i rd, told dev'.history i = some rd → told dev.history i = some rd) :
    AllPending dev' := by
  intro i rd htold
  have hbefore := h i rd (hhistory i rd htold)
  obtain ⟨hmain, hrq, hstate⟩ := hrecords i hbefore.idx_lt hbefore.active
  exact {
    idx_lt := hbefore.idx_lt
    inUse := hcontacts i hbefore.idx_lt hbefore.inUse
    active := hctx hbefore.active
    allocated := hallocated hbefore.allocated
    notSwitched := (htarget hbefore.active).trans hbefore.notSwitched
    main := hmain.trans hbefore.main
    rq := hrq.trans hbefore.rq
    state := hstate hbefore.state }

/-- They do not depend on anything else. -/
theorem AllPending.congr (h : AllPending dev) (hcontacts : dev'.contacts = dev.contacts)
    (hctx : dev'.ctx = dev.ctx) (hourQueue : dev'.ourQueue = dev.ourQueue)
    (hrecords : dev'.records = dev.records)
    (hhistory : ∀ i, told dev'.history i = told dev.history i) : AllPending dev' := by
  have hrecord : ∀ i, dev'.record i = dev.record i := fun i => by
    rw [RotationDevice.record, RotationDevice.record, hrecords]
  have htarget : dev'.onTarget = dev.onTarget := by
    rw [RotationDevice.onTarget, RotationDevice.onTarget, hourQueue, hctx]
  exact h.frame (fun i _ hin => by rw [hcontacts]; exact hin)
    (fun hactive => by rw [hctx]; exact hactive) (fun _ => htarget)
    (fun hsome => by rw [hrecords]; exact hsome)
    (fun i _ _ => by rw [hrecord]; exact ⟨rfl, rfl, id⟩) (fun i rd htold => hhistory i ▸ htold)

/-- A record update is harmless when the contact does not wait, or when it keeps the queues. -/
theorem AllPending.updateRecord (h : AllPending dev) (hsome : dev.records.isSome = true) {idx : ℕ}
    {rd : RotationContactData} (hrd : mayBeTold (dev.record idx).state →
      rd.main = (dev.record idx).main ∧ rd.rq = (dev.record idx).rq ∧ mayBeTold rd.state) :
    AllPending (dev.updateRecord idx rd) := by
  intro i told_rd htold
  rw [RotationDevice.updateRecord_history] at htold
  have hbefore := h i told_rd htold
  have hrecord : ((dev.updateRecord idx rd).record i).main = (dev.record i).main ∧
      ((dev.updateRecord idx rd).record i).rq = (dev.record i).rq ∧
      mayBeTold ((dev.updateRecord idx rd).record i).state := by
    by_cases hsame : i = idx
    · subst hsame
      rw [RotationDevice.updateRecord_record_self hsome]
      exact hrd hbefore.state
    · rw [RotationDevice.updateRecord_record_of_ne hsame]
      exact ⟨rfl, rfl, hbefore.state⟩
  exact {
    idx_lt := hbefore.idx_lt
    inUse := by rw [RotationDevice.updateRecord_contacts]; exact hbefore.inUse
    active := by rw [RotationDevice.updateRecord_ctx]; exact hbefore.active
    allocated := by rw [RotationDevice.updateRecord_records_isSome]; exact hsome
    notSwitched := by rw [RotationDevice.updateRecord_onTarget]; exact hbefore.notSwitched
    main := hrecord.1.trans hbefore.main
    rq := hrecord.2.1.trans hbefore.rq
    state := hrecord.2.2 }

/-! ### One pass of the loop -/

/-- What one pass of the loop keeps, compared with the device at its start. -/
structure PassInv (dev : RotationDevice) (env : ℕ → ContactEnv) (d : RotationDevice) : Prop where
  pending : AllPending d
  stillTold : StillTold dev d
  contacts : d.contacts = dev.contacts
  ctx : d.ctx = dev.ctx
  onTarget : d.onTarget = dev.onTarget
  qkey : ∀ i, (d.record i).state = .qkeyReceived → d.record i = dev.record i
  due : ∀ i, (d.record i).state = .keySent → (dev.record i).state = .keySent ∨
    ((dev.record i).state = .qkeyReceived ∧ (dev.record i).mainPeer.hasPeerSenderKey = true ∧
      (env i).connects = true ∧ (env i).keyAccepted = true)

/-- A pass starts with it. -/
theorem PassInv.start (h : AllPending dev) (env : ℕ → ContactEnv) : PassInv dev env dev :=
  ⟨h, .of_history rfl, rfl, rfl, rfl, fun _ _ => rfl, fun _ h => .inl h⟩

/-- A contact that a QUSE is written to was due for it at the start of the pass. -/
theorem PassInv.writesQuse {env : ℕ → ContactEnv} {d : RotationDevice} (h : PassInv dev env d)
    {idx : ℕ} (hstate : (d.record idx).state = .keySent) (hloads : (env idx).peerLoads = true)
    (hsend : (env idx).send ≠ .failed) : writesQuse (dev.record idx) (env idx) = true := by
  rw [SimpleGo.writesQuse]
  simp only [Bool.and_eq_true, Bool.or_eq_true, bne_iff_ne, beq_iff_eq]
  exact ⟨⟨hloads, hsend⟩, (h.due idx hstate).imp id fun hkey =>
    ⟨⟨⟨hkey.1, hkey.2.2.1⟩, hkey.2.1⟩, hkey.2.2.2⟩⟩

/-- A record that is updated to a state outside ROT_QKEY_RECEIVED. -/
theorem PassInv.updateRecord {env : ℕ → ContactEnv} {d : RotationDevice} (h : PassInv dev env d)
    (hsome : d.records.isSome = true) {idx : ℕ} {rd : RotationContactData}
    (hrd : mayBeTold (d.record idx).state →
      rd.main = (d.record idx).main ∧ rd.rq = (d.record idx).rq ∧ mayBeTold rd.state)
    (hqkey : rd.state ≠ .qkeyReceived)
    (hdue : rd.state = .keySent → (dev.record idx).state = .keySent ∨
      ((dev.record idx).state = .qkeyReceived ∧
        (dev.record idx).mainPeer.hasPeerSenderKey = true ∧ (env idx).connects = true ∧
        (env idx).keyAccepted = true)) : PassInv dev env (d.updateRecord idx rd) where
  pending := h.pending.updateRecord hsome hrd
  stillTold := h.stillTold.trans (.of_history (RotationDevice.updateRecord_history ..))
  contacts := (RotationDevice.updateRecord_contacts ..).trans h.contacts
  ctx := (RotationDevice.updateRecord_ctx ..).trans h.ctx
  onTarget := (RotationDevice.updateRecord_onTarget ..).trans h.onTarget
  qkey := by
    intro i hstate
    by_cases hsame : i = idx
    · subst hsame
      rw [RotationDevice.updateRecord_record_self hsome] at hstate
      exact absurd hstate hqkey
    · rw [RotationDevice.updateRecord_record_of_ne hsame] at hstate ⊢
      exact h.qkey i hstate
  due := by
    intro i hstate
    by_cases hsame : i = idx
    · subst hsame
      rw [RotationDevice.updateRecord_record_self hsome] at hstate
      exact hdue hstate
    · rw [RotationDevice.updateRecord_record_of_ne hsame] at hstate
      exact h.due i hstate

/-- A noted QUSE: its contact waits from now on. -/
theorem PassInv.noteQuse {env : ℕ → ContactEnv} {d : RotationDevice} (h : PassInv dev env d)
    {idx : ℕ} (hat : d.AtContact idx) (hstate : (d.record idx).state = .keySent)
    (htarget : d.onTarget = false) (payload : List UInt8) :
    PassInv dev env (d.note (.quseSent idx (d.record idx) payload)) := by
  refine ⟨?_, h.stillTold.trans ?_, h.contacts, h.ctx, h.onTarget, h.qkey, h.due⟩
  · intro i rd htold
    change (if idx = i then some (d.record idx) else told d.history i) = some rd at htold
    by_cases hsame : idx = i
    · subst hsame
      rw [if_pos rfl] at htold
      obtain rfl := Option.some.inj htold
      exact ⟨hat.idx_lt, hat.inUse, hat.active, hat.allocated, htarget, rfl, rfl, .inl hstate⟩
    · rw [if_neg hsame] at htold
      have hbefore := h.pending i rd htold
      exact ⟨hbefore.idx_lt, hbefore.inUse, hbefore.active, hbefore.allocated, hbefore.notSwitched,
        hbefore.main, hbefore.rq, hbefore.state⟩
  · intro i rd htold
    by_cases hsame : idx = i
    · subst hsame
      have hbefore := h.pending idx rd htold
      exact ⟨d.record idx, if_pos rfl, hbefore.main, hbefore.rq⟩
    · exact ⟨rd, (if_neg hsame).trans htold, rfl, rfl⟩

/-- A noted QADD. -/
theorem PassInv.noteQadd {env : ℕ → ContactEnv} {d : RotationDevice} (h : PassInv dev env d)
    (idx : ℕ) (payload : List UInt8) : PassInv dev env (d.note (.qaddSent idx payload)) :=
  ⟨h.pending.congr rfl rfl rfl rfl fun _ => rfl,
    h.stillTold.trans fun _ rd htold => ⟨rd, htold, rfl, rfl⟩, h.contacts, h.ctx, h.onTarget,
    h.qkey, h.due⟩

/-- A mark on a contact that keeps its queues. -/
theorem PassInv.markState {env : ℕ → ContactEnv} {d : RotationDevice} (h : PassInv dev env d)
    {idx : ℕ} (hat : d.AtContact idx) {state : RotationContactState}
    (hmark : mayBeTold (d.record idx).state → mayBeTold state)
    (hqkey : state ≠ .qkeyReceived) (hkey : state ≠ .keySent) :
    PassInv dev env (d.markState idx state) := by
  rw [RotationDevice.markState_eq hat.idx_lt]
  exact h.updateRecord hat.allocated (fun htold => ⟨rfl, rfl, hmark htold⟩) hqkey
    fun heq => absurd heq hkey

/-- A QUSE is written only while our queues are not on the target server. -/
theorem PassInv.notSwitched {env : ℕ → ContactEnv} {d : RotationDevice} (h : PassInv dev env d)
    (hcond : SwitchesFirst X dev (.appStep env)) {idx : ℕ} (hat : d.AtContact idx)
    (hstate : (d.record idx).state = .keySent) (hloads : (env idx).peerLoads = true)
    (hsend : (env idx).send ≠ .failed) : d.onTarget = false := by
  by_contra hno
  rw [Bool.not_eq_false, h.onTarget] at hno
  have hslot : idx ∈ dev.activeSlots := by
    rw [RotationDevice.mem_activeSlots, ← h.contacts]
    exact ⟨hat.idx_lt, hat.inUse⟩
  have hnone := hcond (h.ctx ▸ hat.active) hno idx hslot
  exact absurd ((h.writesQuse hstate hloads hsend).symm.trans hnone) (by simp)

/-- Every small step of a pass keeps it, when no QUSE is sent after the live switch. -/
theorem PassInv.kept {env : ℕ → ContactEnv} (hcond : SwitchesFirst X dev (.appStep env)) (idx : ℕ) :
    RotationDevice.KeptAt X (env idx) idx (PassInv dev env) := by
  intro d d' hat h hs
  have hquse : mayBeTold .quseSent := .inr (.inl rfl)
  cases hs with
  | record rd hrecord =>
    refine h.updateRecord hat.allocated (fun htold => ?_) hrecord.after.1 fun hkey => ?_
    · rcases hrecord.before with hstate | hstate <;> simp [mayBeTold, hstate] at htold
    · obtain ⟨hstate, hsender, hconnects, haccepted⟩ := hrecord.after.2 hkey
      have hsame := h.qkey idx hstate
      exact .inr ⟨hsame ▸ hstate, hsame ▸ hsender, hconnects, haccepted⟩
  | qaddSkipped hstate =>
    exact h.markState hat (by simp [mayBeTold, hstate]) (by simp) (by simp)
  | qaddUnconfirmed payload _ _ => exact h.noteQadd idx payload
  | qaddSent payload hstate _ =>
    exact (h.noteQadd idx payload).markState (hat.note _)
      (by change mayBeTold (d.record idx).state → _; simp [mayBeTold, hstate]) (by simp) (by simp)
  | quseSkipped _ _ => exact h.markState hat (fun _ => hquse) (by simp) (by simp)
  | quseUnconfirmed payload hstate hloads hsend _ =>
    exact h.noteQuse hat hstate (h.notSwitched hcond hat hstate hloads (by simp [hsend])) payload
  | quseSent payload hstate hloads hsend _ =>
    have hswitch := h.notSwitched hcond hat hstate hloads (by simp [hsend])
    exact (h.noteQuse hat hstate hswitch payload).markState (hat.note _) (fun _ => hquse) (by simp)
      (by simp)

/-! ### The live switch -/

/-- The copied part of an id. -/
theorem copyId_take (dst src : Bytes 24) (len : ℕ) :
    (copyId dst src len).toList.take len = src.toList.take len := by
  apply List.ext_getElem
  · simp
  · intro i h₁ h₂
    simp only [List.length_take, Vector.length_toList] at h₁
    have hi : i < len := by omega
    simp [copyId, hi]

/-- A moved contact has the keys of its record. -/
theorem installed_of_migrates {i : ℕ} (h : dev.migrates i = true) {rd : RotationContactData}
    (hmain : (dev.record i).main = rd.main) (hrq : (dev.record i).rq = rd.rq) :
    dev.rotationComplete.Installed i rd := by
  have hcontact : dev.rotationComplete.contacts i = (dev.contacts i).migrate (dev.record i) := by
    rw [RotationDevice.rotationComplete_contacts, RotationDevice.migrateCredentials_contacts h]
  have hqueue : dev.rotationComplete.replyQueues i =
      (dev.replyQueues i).migrate (dev.contacts i) (dev.record i) := by
    rw [RotationDevice.rotationComplete_replyQueues, RotationDevice.migrateCredentials_replyQueues h]
  exact {
    recipientId := by rw [hcontact, ← hmain]; exact copyId_take ..
    recipientIdLen := by rw [hcontact, ← hmain]; rfl
    rcvAuthSecret := by rw [hcontact, ← hmain]; rfl
    rcvDhSecret := by rw [hcontact, ← hmain]; rfl
    srvDhPublic := by rw [hcontact, ← hmain]; rfl
    haveSrvDh := by rw [hcontact]; rfl
    rqRcvId := by rw [hqueue, ← hrq]; exact copyId_take ..
    rqRcvIdLen := by rw [hqueue, ← hrq]; rfl
    rqRcvAuthPrivate := by rw [hqueue, ← hrq]; rfl
    rqE2ePrivate := by rw [hqueue, ← hrq]; rfl
    rqSharedSecret := by rw [hqueue, ← hrq]; rfl
    rqValid := by rw [hqueue]; rfl }

/-- After the live switch nobody waits, and who waited has the new queues in use. -/
theorem liveSwitch_forward (h : AllPending dev) : Forward dev dev.liveSwitch := by
  rw [RotationDevice.liveSwitch]
  split
  · rename_i hready
    set logged : RotationDevice := { dev with completeLogged := true } with hlogged
    have hpending : AllPending logged := h.congr rfl rfl rfl rfl fun _ => rfl
    dsimp only
    split
    · exact (StillTold.of_history rfl).forward hpending
    · -- every contact in use is moved, so every contact that waits is
      simp only [Bool.and_eq_true, RotationDevice.allReady, List.all_eq_true, Bool.or_eq_true,
        beq_iff_eq] at hready
      have hmoved : ∀ i rd, told dev.history i = some rd → logged.migrates i = true := by
        intro i rd htold
        have hbefore := h i rd htold
        rw [RotationDevice.migrates_iff]
        exact ⟨hbefore.idx_lt, hbefore.inUse, (hready.1.2 i (RotationDevice.mem_activeSlots.2
          ⟨hbefore.idx_lt, hbefore.inUse⟩)).symm⟩
      have hnone : ∀ i, told logged.rotationComplete.history i = none := by
        intro i
        rw [RotationDevice.rotationComplete_history, told_migrated]
        split
        · rfl
        · rename_i hno
          cases htold : told dev.history i with
          | none => rfl
          | some rd => exact absurd (RotationDevice.mem_migratedSlots.2 (hmoved i rd htold)) hno
      refine ⟨fun i rd htold => absurd (htold.symm.trans (hnone i)) (by simp),
        fun i rd htold => .inr ?_⟩
      have hbefore := h i rd htold
      exact installed_of_migrates (hmoved i rd htold) hbefore.main hbefore.rq
  · exact (StillTold.of_history rfl).forward h

/-- A pass of the loop strands nobody. -/
theorem appRotationStep_forward (hsaved : dev.Saved) (h : AllPending dev) {env : ℕ → ContactEnv}
    (hcond : SwitchesFirst X dev (.appStep env)) : Forward dev (dev.appRotationStep X env) := by
  refine RotationDevice.appRotationStep_rule hsaved.rotation.allocated (PassInv.kept hcond)
    (fun d hd => hd.stillTold.forward hd.pending) (fun d _ _ hd => ?_) (PassInv.start h env)
  obtain ⟨hpending, hforward⟩ := liveSwitch_forward hd.pending
  refine ⟨hpending, fun i rd htold => ?_⟩
  obtain ⟨rd', htold', hmain, hrq⟩ := hd.stillTold i rd htold
  rcases hforward i rd' htold' with ⟨rd'', htold'', hmain', hrq'⟩ | hinstalled
  · exact .inl ⟨rd'', htold'', hmain'.trans hmain, hrq'.trans hrq⟩
  · refine .inr ?_
    obtain ⟨c₁, c₂, c₃, c₄, c₅, c₆, q₁, q₂, q₃, q₄, q₅, q₆⟩ := hinstalled
    rw [hmain] at c₁ c₂ c₃ c₄ c₅
    rw [hrq] at q₁ q₂ q₃ q₄ q₅
    exact ⟨c₁, c₂, c₃, c₄, c₅, c₆, q₁, q₂, q₃, q₄, q₅, q₆⟩

/-! ### The other steps -/

/-- A QKEY changes the record of a contact that does not wait. -/
theorem rotationHandleQkey_forward (hsaved : dev.Saved) (h : AllPending dev)
    (hactive : dev.ctx.active = true) (idx : ℕ) (data : List UInt8) :
    Forward dev (dev.rotationHandleQkey idx data) := by
  have hsome := hsaved.rotation.allocated hactive
  rcases dev.rotationHandleQkey_cases idx data with heq | ⟨rd, hsame, hidx, hstate, heq⟩
  · rw [heq]
    exact (StillTold.of_history rfl).forward h
  · have hno : ¬ mayBeTold (dev.record idx).state := by
      rcases hstate with hstate | hstate <;> simp [mayBeTold, hstate]
    rcases heq with heq | heq
    · rw [heq]
      refine (StillTold.of_history rfl).forward (h.frame (fun _ _ hin => hin) (fun ha => ha)
        (fun _ => rfl) (fun _ => ?_) (fun i _ _ => ?_) fun _ _ htold => htold)
      · rw [RotationDevice.setRecord, Option.isSome_map]
        exact hsome
      · obtain ⟨rs, hrs⟩ := Option.isSome_iff_exists.1 hsome
        have hrecord : (dev.setRecord idx rd).record i = Function.update rs idx rd i := by
          rw [RotationDevice.record, RotationDevice.setRecord, hrs]
          rfl
        rw [RotationDevice.record_of_some hrs] at hsame hno ⊢
        rw [hrecord]
        by_cases hi : i = idx
        · subst hi
          rw [Function.update_self]
          exact ⟨hsame.main, hsame.rq, fun htold => absurd htold hno⟩
        · rw [Function.update_of_ne hi]
          exact ⟨rfl, rfl, id⟩
    · rw [heq]
      exact (StillTold.of_history (RotationDevice.updateRecord_history ..)).forward
        (h.updateRecord hsome fun htold => absurd htold hno)

/-- A QTEST ends the rotation only when nobody waits. -/
theorem rotationMarkQtestReceived_forward (hsaved : dev.Saved) (h : AllPending dev)
    (hactive : dev.ctx.active = true) {idx : ℕ} (hidx : idx < maxContacts)
    (hcond : dev.othersQtestDone idx → dev.onTarget = true) :
    Forward dev (dev.rotationMarkQtestReceived idx) := by
  have hsome := hsaved.rotation.allocated hactive
  have hmarked := dev.markState_eq hidx .done
  have hhistory : (dev.qtestCounted idx).history = dev.history := by
    change (dev.markState idx .done).history = _
    rw [hmarked, RotationDevice.updateRecord_history]
  rcases RotationDevice.rotationMarkQtestReceived_cases hsome hidx with ⟨-, heq⟩ | ⟨hothers, heq⟩
  · rw [heq]
    refine (StillTold.of_history hhistory).forward ?_
    have hupdated : AllPending (dev.markState idx .done) := by
      rw [hmarked]
      exact h.updateRecord hsome fun _ => ⟨rfl, rfl, .inr (.inr rfl)⟩
    have hctx : (dev.markState idx .done).ctx = dev.ctx := by
      rw [hmarked, RotationDevice.updateRecord_ctx]
    exact hupdated.frame (fun _ _ hin => hin) (fun _ => hactive)
      (fun _ => by rw [RotationDevice.onTarget, RotationDevice.onTarget, hctx]; rfl) id
      (fun _ _ _ => ⟨rfl, rfl, id⟩) fun _ _ htold => htold
  · rw [heq]
    refine Forward.of_none (h.none_of_onTarget (hcond hothers)) fun i => ?_
    exact congrArg (told · i) hhistory

/-- A message strands nobody. -/
theorem msgStep_forward (hsaved : dev.Saved) (h : AllPending dev) {taken : Prop} {idx : ℕ}
    (hcond : taken → dev.othersQtestDone idx → dev.onTarget = true)
    (hs : RotationDevice.MsgStep taken idx dev dev') : Forward dev dev' := by
  cases hs with
  | same => exact (StillTold.of_history rfl).forward h
  | qkey data hactive _ => exact rotationHandleQkey_forward hsaved h hactive idx data
  | qtest htaken hactive hidx _ =>
    exact rotationMarkQtestReceived_forward hsaved h hactive hidx (hcond htaken)

/-- A key learned from a message changes nothing for who waits. -/
theorem learnPeerKey_pending (h : AllPending dev) (idx : ℕ) (newPeer : Option (Bytes 32)) :
    AllPending (dev.learnPeerKey idx newPeer) ∧
      ((dev.learnPeerKey idx newPeer).othersQtestDone idx ↔ dev.othersQtestDone idx) ∧
      (dev.learnPeerKey idx newPeer).onTarget = dev.onTarget ∧
      (dev.learnPeerKey idx newPeer).history = dev.history := by
  rw [RotationDevice.learnPeerKey_eq]
  exact ⟨h.congr rfl rfl rfl rfl fun _ => rfl, Iff.rfl, rfl, rfl⟩

/-- A rotation starts when nobody waits. -/
theorem rotationStart_forward (h : AllPending dev) (idx : UInt8) (srv : SmpServer) :
    Forward dev (dev.rotationStart idx srv).1 := by
  rw [RotationDevice.rotationStart]
  split
  · exact (StillTold.of_history rfl).forward h
  · rename_i hguard
    have hno : dev.ctx.active = false := by
      rw [not_or] at hguard
      simpa using hguard.1
    split
    · exact .of_none (h.told_eq_none hno) fun i => by
        rw [RotationDevice.smpServersSetActive_history]
    · exact .of_none (h.told_eq_none hno) fun _ => rfl

/-- A contact is added to a slot where nobody waits. -/
theorem addContact_forward (h : AllPending dev) (keys : ContactDevice.ContactKeys)
    (ids : ContactDevice.QueueIds) (rqKeys : NewQueueKeys) (rqIds : Option NewQueueIds) :
    Forward dev (dev.addContact X keys ids rqKeys rqIds) := by
  rcases dev.addContact_cases keys ids rqKeys rqIds with heq | ⟨slot, hslot, hfree, heq⟩
  · rw [heq]
    exact (StillTold.of_history rfl).forward h
  · set added : RotationDevice := { dev with
      contacts := Function.update dev.contacts slot (ContactDevice.createdContact keys ids)
      replyQueues := Function.update dev.replyQueues slot
        (RotationDevice.createdReplyQueue X rqKeys rqIds)
      history := .added slot :: dev.history }
    have hno : told dev.history slot = none := by
      cases htold : told dev.history slot with
      | none => rfl
      | some rd => exact absurd ((h slot rd htold).inUse.symm.trans hfree) (by simp)
    have hhistory : ∀ i, told added.history i = told dev.history i := by
      intro i
      change (if slot = i then none else told dev.history i) = _
      split
      · rename_i hsame
        exact hsame ▸ hno.symm
      · rfl
    have hadded : AllPending added := by
      refine h.frame (fun i _ hin => ?_) id (fun _ => rfl) id (fun _ _ _ => ⟨rfl, rfl, id⟩)
        fun i rd htold => hhistory i ▸ htold
      have hne : i ≠ slot := by
        rintro rfl
        exact absurd (hin.symm.trans hfree) (by simp)
      change (Function.update dev.contacts slot _ i).isActive = true
      rw [Function.update_of_ne hne]
      exact hin
    rw [heq, added.saveNewContact_eq]
    exact StillTold.forward (fun i rd htold => ⟨rd, (hhistory i).trans htold, rfl, rfl⟩)
      (hadded.congr rfl rfl rfl rfl fun _ => rfl)

/-- A start-up finds the keys of everybody who waits in NVS. -/
theorem boot_forward (hsaved : dev.Saved) (h : AllPending dev) (created : OurQueue) :
    Forward dev (dev.boot created) := by
  refine (StillTold.of_history (RotationDevice.boot_history created)).forward
    (h.frame (fun i hi hin => ?_) (fun hactive => ?_) (fun hactive => ?_) (fun _ => ?_)
      (fun i hi hactive => ?_) fun i rd htold => ?_)
  · rw [hsaved.boot_isActive created hi]
    exact hin
  · rw [hsaved.boot_active created]
    exact hactive
  · rw [RotationDevice.onTarget, RotationDevice.onTarget, hsaved.boot_ourQueue created,
      hsaved.boot_ctx created, if_pos hactive]
  · rw [RotationDevice.boot_records]
    rfl
  · have hsame := hsaved.boot_record created hactive hi
    exact ⟨hsame.main, hsame.rq, fun htold => by rw [hsame.state]; exact htold⟩
  · rwa [RotationDevice.boot_history] at htold

/-- Every step that meets the condition strands nobody. -/
theorem step_forward (hsaved : dev.Saved) (h : AllPending dev) (label : RotationLabel)
    (hcond : SwitchesFirst X dev label) : Forward dev (dev.step X label) := by
  cases label with
  | start idx srv => exact rotationStart_forward h idx srv
  | appStep env => exact appRotationStep_forward hsaved h hcond
  | contactMsg idx env => exact msgStep_forward hsaved h hcond (dev.contactMsg_step X idx env)
  | replyMsg idx legacy env =>
    obtain ⟨learned, hlearned, hs⟩ := dev.replyMsg_step X idx legacy env
    rcases hlearned with rfl | ⟨hidx, hvalid, rfl⟩
    · exact msgStep_forward hsaved h hcond hs
    · obtain ⟨hpending, hothers, htarget, hhistory⟩ := learnPeerKey_pending h idx env.newPeer
      have hforward := msgStep_forward (hsaved.learnPeerKey hidx hvalid env.newPeer) hpending
        (fun htaken hdone => by rw [htarget]; exact hcond htaken (hothers.1 hdone)) hs
      exact ⟨hforward.1, fun i rd htold => hforward.2 i rd (hhistory.symm ▸ htold)⟩
  | addContact keys ids rqKeys rqIds => exact addContact_forward h keys ids rqKeys rqIds
  | confirm idx =>
    rw [RotationDevice.step, RotationDevice.sendAgentConfirmation]
    have hsame : Forward dev dev := (StillTold.of_history rfl).forward h
    split
    · split
      · exact hsame
      · exact StillTold.forward (fun _ rd htold => ⟨rd, htold, rfl, rfl⟩)
          (h.congr rfl rfl rfl rfl fun _ => rfl)
    · exact hsame
  | abort =>
    refine .of_none (fun i => ?_) fun _ => rfl
    cases htold : told dev.history i with
    | none => rfl
    | some rd =>
      have hbefore := h i rd htold
      rcases hcond hbefore.active with htarget | hnone
      · exact absurd (hbefore.notSwitched.symm.trans htarget) (by simp)
      · exact absurd hbefore.state (hnone i (RotationDevice.mem_activeSlots.2
          ⟨hbefore.idx_lt, hbefore.inUse⟩))
  | reboot created => exact boot_forward hsaved h created

end SimpleGo
