import SimpleGo.Rotation.LiveSwitch

/-!
# The pass that makes the live switch

A pass of the loop ends with the first contact that it creates queues for or sends something
to. So a pass that comes to the live switch has done no more than skip contacts whose peer
queue cannot be loaded, and whether it comes there can be read off the device and the inputs.
-/

namespace SimpleGo

open Lib

/-- The state of a contact after a pass that does not end with it. -/
def quietState (rd : RotationContactData) (env : ContactEnv) : RotationContactState :=
  if env.peerLoads then rd.state
  else
    match rd.state with
    | .queueCreated => .qaddSent
    | .qkeyReceived | .keySent => .quseSent
    | state => state

/-- The contact is in QUSE_SENT or DONE when the loop has passed it. -/
def readyAfterPass (rd : RotationContactData) (env : ContactEnv) : Bool :=
  rd.state == .quseSent || rd.state == .done ||
    !env.peerLoads && (rd.state == .keySent || rd.state == .qkeyReceived && env.connects &&
      rd.mainPeer.hasPeerSenderKey && env.keyAccepted)

namespace RotationDevice

variable {X : Sodium} {dev : RotationDevice}

/-- The device differs by the state of one contact. -/
structure Marked (dev : RotationDevice) (idx : ℕ) (state : RotationContactState)
    (d : RotationDevice) : Prop where
  same : d = { dev with records := d.records, flash := d.flash }
  allocated : d.records.isSome = true
  self : d.record idx = { dev.record idx with state := state }
  others : ∀ i ≠ idx, d.record i = dev.record i

/-- A contact that is stepped over. -/
theorem Marked.refl (h : dev.records.isSome = true) (idx : ℕ) :
    Marked dev idx (dev.record idx).state dev := ⟨rfl, h, rfl, fun _ _ => rfl⟩

/-- A mark. -/
theorem Marked.markState (h : dev.records.isSome = true) {idx : ℕ} (hidx : idx < maxContacts)
    (state : RotationContactState) : Marked dev idx state (dev.markState idx state) := by
  rw [markState_eq hidx]
  refine ⟨?_, ?_, updateRecord_record_self h idx _, fun i hi => updateRecord_record_of_ne hi _⟩
  · rw [updateRecord_eq]
  · rw [updateRecord_records_isSome, h]

/-- The last mark counts. -/
theorem Marked.trans {idx : ℕ} {state state' : RotationContactState} {d d' : RotationDevice}
    (h : Marked dev idx state d) (h' : Marked d idx state' d') : Marked dev idx state' d' := by
  refine ⟨?_, h'.allocated, ?_, fun i hi => (h'.others i hi).trans (h.others i hi)⟩
  · rw [h'.same, h.same]
  · rw [h'.self, h.self]

/-- QUSE does not end the pass only when it is skipped. -/
theorem stepQuse_quiet {idx : ℕ} {env : ContactEnv} (hquiet : (dev.stepQuse idx env).2 = false) :
    env.peerLoads = false ∧ (dev.stepQuse idx env).1 = dev.rotationMarkQuseSent idx := by
  rw [stepQuse] at hquiet ⊢
  cases hloads : env.peerLoads with
  | false => exact ⟨rfl, rfl⟩
  | true =>
    rw [hloads, if_neg (by simp)] at hquiet
    split at hquiet <;> cases hquiet

/-- A contact that does not end the pass is marked at most, as one without a peer queue. -/
theorem stepContact_quiet {idx : ℕ} {env : ContactEnv} (hat : dev.AtContact idx)
    (hquiet : (dev.stepContact X idx env).2 = false) :
    Marked dev idx (quietState (dev.record idx) env) (dev.stepContact X idx env).1 ∧
      (quietState (dev.record idx) env = .quseSent ∨ quietState (dev.record idx) env = .done →
        readyAfterPass (dev.record idx) env = true) := by
  rw [stepContact, getContactState_eq hat.idx_lt] at hquiet ⊢
  split at hquiet <;> rename_i hstate
  · cases hquiet
  · -- QADD: the contact has no peer queue
    have hloads : env.peerLoads = false := by
      by_contra hloads
      rw [Bool.not_eq_false] at hloads
      rw [stepQadd, hloads, if_neg (by simp)] at hquiet
      split at hquiet <;> cases hquiet
    have hnext : quietState (dev.record idx) env = .qaddSent := by
      rw [quietState, hloads, hstate]
      rfl
    rw [hnext]
    refine ⟨?_, fun h => by simp at h⟩
    rw [stepQadd, hloads, if_pos (by simp)]
    exact Marked.markState hat.allocated hat.idx_lt _
  · -- KEY and QUSE
    rw [stepKey] at hquiet
    split at hquiet
    · cases hquiet
    · rename_i hguard
      obtain ⟨hloads, hskip⟩ := stepQuse_quiet hquiet
      have hnext : quietState (dev.record idx) env = .quseSent := by
        rw [quietState, hloads, hstate]
        rfl
      have hkey := Marked.markState hat.allocated hat.idx_lt .keySent
      rw [hnext]
      refine ⟨?_, fun _ => ?_⟩
      · rw [stepKey, if_neg hguard, hskip]
        exact hkey.trans (Marked.markState hkey.allocated hat.idx_lt _)
      · simp only [Bool.or_eq_true, Bool.not_eq_true', not_or, Bool.not_eq_false] at hguard
        simp [readyAfterPass, hstate, hloads, hguard.1.1, hguard.1.2, hguard.2]
  · obtain ⟨hloads, hskip⟩ := stepQuse_quiet hquiet
    have hnext : quietState (dev.record idx) env = .quseSent := by
      rw [quietState, hloads, hstate]
      rfl
    rw [hnext]
    refine ⟨?_, fun _ => by simp [readyAfterPass, hstate, hloads]⟩
    rw [hskip]
    exact Marked.markState hat.allocated hat.idx_lt _
  · rename_i hcreated hkey hsent
    have hnext : quietState (dev.record idx) env = (dev.record idx).state := by
      rw [quietState]
      split
      · rfl
      · split
        · contradiction
        · contradiction
        · contradiction
        · rfl
    rw [hnext]
    refine ⟨Marked.refl hat.allocated idx, fun hready => ?_⟩
    rcases hready with h | h <;> simp [readyAfterPass, h]

/-! ### The whole pass -/

/-- The device after a loop over these slots that no contact has ended. -/
structure QuietPass (dev : RotationDevice) (env : ℕ → ContactEnv) (slots : List ℕ)
    (d : RotationDevice) : Prop where
  same : d = { dev with records := d.records, flash := d.flash }
  allocated : d.records.isSome = true
  passed : ∀ i ∈ slots, d.record i = { dev.record i with
    state := quietState (dev.record i) (env i) }
  ready : ∀ i ∈ slots, (d.record i).state = .quseSent ∨ (d.record i).state = .done →
    readyAfterPass (dev.record i) (env i) = true
  others : ∀ i ∉ slots, d.record i = dev.record i

/-- A loop that no contact has ended. -/
theorem stepContacts_quiet {env : ℕ → ContactEnv} (slots : List ℕ) (hnodup : slots.Nodup)
    (hat : ∀ idx ∈ slots, dev.AtContact idx) (hsome : dev.records.isSome = true)
    (hquiet : (stepContacts X env dev slots).2 = false) :
    QuietPass dev env slots (stepContacts X env dev slots).1 := by
  induction slots generalizing dev with
  | nil => exact ⟨rfl, hsome, fun _ h => by simp at h, fun _ h => by simp at h, fun _ _ => rfl⟩
  | cons idx rest ih =>
    rw [stepContacts] at hquiet ⊢
    cases hflag : (dev.stepContact X idx (env idx)).2 with
    | true =>
      rw [hflag, if_pos rfl] at hquiet
      exact absurd (hquiet.symm.trans hflag) (by simp)
    | false =>
      rw [hflag, if_neg (by simp)] at hquiet
      rw [if_neg (by simp)]
      obtain ⟨hmarked, hready⟩ := stepContact_quiet (hat idx List.mem_cons_self) hflag
      set d := (dev.stepContact X idx (env idx)).1
      have hrest : ∀ j ∈ rest, d.AtContact j := by
        intro j hj
        have hbefore := hat j (List.mem_cons_of_mem _ hj)
        rw [hmarked.same]
        exact ⟨hbefore.active, hbefore.idx_lt, hbefore.inUse, hmarked.allocated⟩
      have hdone := ih (List.nodup_cons.1 hnodup).2 hrest hmarked.allocated hquiet
      have hidx : idx ∉ rest := (List.nodup_cons.1 hnodup).1
      have hother : ∀ i ∈ rest, d.record i = dev.record i := fun i hi =>
        hmarked.others i fun heq => hidx (heq ▸ hi)
      refine ⟨?_, hdone.allocated, fun i hi => ?_, fun i hi hstate => ?_, fun i hi => ?_⟩
      · rw [hdone.same, hmarked.same]
      · rcases List.mem_cons.1 hi with rfl | hi
        · rw [hdone.others i hidx, hmarked.self]
        · rw [hdone.passed i hi, hother i hi]
      · rcases List.mem_cons.1 hi with rfl | hi
        · rw [hdone.others i hidx, hmarked.self] at hstate
          exact hready hstate
        · rw [← hother i hi]
          exact hdone.ready i hi hstate
      · rw [List.mem_cons, not_or] at hi
        rw [hdone.others i hi.2, hmarked.others i hi.1]

/-- This pass makes the live switch. -/
def SwitchesNow (dev : RotationDevice) (env : ℕ → ContactEnv) : Prop :=
  dev.ctx.active = true ∧ dev.onTarget = false ∧ dev.completeLogged = false ∧
    ∀ i ∈ dev.activeSlots, readyAfterPass (dev.record i) (env i) = true

instance (dev : RotationDevice) (env : ℕ → ContactEnv) : Decidable (dev.SwitchesNow env) :=
  inferInstanceAs (Decidable (_ ∧ _ ∧ _ ∧ ∀ i ∈ dev.activeSlots, _))

/-- The credentials of two devices are the same. -/
structure SameCredentials (dev d : RotationDevice) : Prop where
  contacts : d.contacts = dev.contacts
  replyQueues : d.replyQueues = dev.replyQueues
  ourQueue : d.ourQueue = dev.ourQueue

/-- A loop leaves the credentials and the context alone, and keeps what its small steps keep. -/
theorem stepContacts_credentials {P : RotationDevice → Prop} {env : ℕ → ContactEnv}
    (hkept : ∀ idx, KeptAt X (env idx) idx P) (hactive : dev.ctx.active = true)
    (hsome : dev.records.isSome = true) (h : P dev) :
    (P (stepContacts X env dev dev.activeSlots).1 ∧
      SameCredentials dev (stepContacts X env dev dev.activeSlots).1) ∧
      (stepContacts X env dev dev.activeSlots).1.ctx = dev.ctx := by
  have hat : ∀ idx ∈ dev.activeSlots, dev.AtContact idx := fun idx hidx =>
    ⟨hactive, (mem_activeSlots.1 hidx).1, (mem_activeSlots.1 hidx).2, hsome⟩
  have hboth : ∀ idx, KeptAt X (env idx) idx fun d =>
      (P d ∧ SameCredentials dev d) ∧ d.ctx = dev.ctx := by
    intro idx d d' hd h hs
    obtain ⟨hcontacts, hreplyQueues, hourQueue, hctx⟩ := ContactStep.same hd.idx_lt hs
    exact ⟨⟨hkept idx d d' hd h.1.1 hs, hcontacts.trans h.1.2.contacts,
      hreplyQueues.trans h.1.2.replyQueues, hourQueue.trans h.1.2.ourQueue⟩, hctx.trans h.2⟩
  exact (stepContacts_rule hboth dev.activeSlots hat hactive hsome
    ⟨⟨h, rfl, rfl, rfl⟩, rfl⟩).1

/-- A pass leaves the credentials alone, or it makes the live switch; up to that it keeps what
its small steps keep. -/
theorem appRotationStep_spec {P : RotationDevice → Prop} {env : ℕ → ContactEnv}
    (hrecords : dev.ctx.active = true → dev.records.isSome = true)
    (hkept : ∀ idx, KeptAt X (env idx) idx P) (h : P dev) :
    (∃ d logged, P d ∧ SameCredentials dev d ∧ d.ctx = dev.ctx ∧
      dev.appRotationStep X env = { d with completeLogged := logged }) ∨
    (dev.SwitchesNow env ∧ ∃ d, P d ∧ QuietPass dev env dev.activeSlots d ∧
      (∀ i ∈ dev.activeSlots, d.migrates i = true) ∧
      dev.appRotationStep X env = { d with completeLogged := true }.rotationComplete) := by
  rw [appRotationStep]
  by_cases hactive : dev.ctx.active = true
  · rw [if_neg (by simp [hactive])]
    have hsome := hrecords hactive
    obtain ⟨⟨hP, hsame⟩, hctx⟩ := stepContacts_credentials hkept hactive hsome h
    dsimp only
    cases hflag : (stepContacts X env dev dev.activeSlots).2 with
    | true =>
      rw [if_pos rfl]
      exact .inl ⟨_, _, hP, hsame, hctx, rfl⟩
    | false =>
      rw [if_neg (by simp)]
      have hat : ∀ idx ∈ dev.activeSlots, dev.AtContact idx := fun idx hidx =>
        ⟨hactive, (mem_activeSlots.1 hidx).1, (mem_activeSlots.1 hidx).2, hsome⟩
      have hnodup : dev.activeSlots.Nodup := List.nodup_range.filter _
      have hquiet := stepContacts_quiet dev.activeSlots hnodup hat hsome hflag
      set d := (stepContacts X env dev dev.activeSlots).1
      have hslots : d.activeSlots = dev.activeSlots := by rw [activeSlots, hsame.contacts, activeSlots]
      have htarget : d.onTarget = dev.onTarget := by
        rw [onTarget, onTarget, hsame.ourQueue, hctx]
      have hlogged : d.completeLogged = dev.completeLogged := by
        have hfield := congrArg completeLogged hquiet.same
        exact hfield
      rw [liveSwitch]
      split
      · rename_i hready
        simp only [Bool.and_eq_true, Bool.not_eq_true', allReady, List.all_eq_true, Bool.or_eq_true,
          beq_iff_eq, hslots, hlogged] at hready
        dsimp only
        split
        · exact .inl ⟨d, true, hP, hsame, hctx, rfl⟩
        · rename_i hno
          have hstate : ∀ i ∈ dev.activeSlots,
              (d.record i).state = .quseSent ∨ (d.record i).state = .done := by
            intro i hi
            have h := hready.1.2 i hi
            rwa [getContactState_eq (mem_activeSlots.1 hi).1] at h
          refine .inr ⟨⟨hactive, ?_, hready.2, fun i hi => hquiet.ready i hi (hstate i hi)⟩, d, hP,
            hquiet, fun i hi => ?_, rfl⟩
          · change ¬ (d.ctx.active && d.onTarget) = true at hno
            rw [hctx, hactive, htarget, Bool.true_and] at hno
            simpa using hno
          · have hslot := mem_activeSlots.1 hi
            rw [migrates_iff, getContactState_eq hslot.1, hsame.contacts]
            exact ⟨hslot.1, hslot.2, (hstate i hi).symm⟩
      · exact .inl ⟨d, _, hP, hsame, hctx, rfl⟩
  · rw [if_pos (by simpa using hactive)]
    exact .inl ⟨dev, _, h, ⟨rfl, rfl, rfl⟩, rfl, rfl⟩

/-- A pass leaves the credentials alone, or it makes the live switch. -/
theorem appRotationStep_cases (hrecords : dev.ctx.active = true → dev.records.isSome = true)
    (env : ℕ → ContactEnv) :
    (SameCredentials dev (dev.appRotationStep X env) ∧
      (dev.appRotationStep X env).ctx = dev.ctx) ∨
    (dev.SwitchesNow env ∧ ∃ d, QuietPass dev env dev.activeSlots d ∧
      (∀ i ∈ dev.activeSlots, d.migrates i = true) ∧
      dev.appRotationStep X env = { d with completeLogged := true }.rotationComplete) := by
  have hkept : ∀ idx, KeptAt X (env idx) idx fun _ => True := fun _ _ _ _ _ _ => trivial
  rcases appRotationStep_spec hrecords hkept trivial with
    ⟨d, logged, -, hsame, hctx, heq⟩ | ⟨hnow, d, -, hquiet, hmoved, heq⟩
  · rw [heq]
    exact .inl ⟨⟨hsame.contacts, hsame.replyQueues, hsame.ourQueue⟩, hctx⟩
  · exact .inr ⟨hnow, d, hquiet, hmoved, heq⟩

/-- A message leaves the credentials alone, but for a learned key. -/
theorem SameCredentials.msgStep {taken : Prop} {idx : ℕ} {d : RotationDevice}
    (hrecords : dev.ctx.active = true → dev.records.isSome = true)
    (hs : MsgStep taken idx dev d) : SameCredentials dev d := by
  cases hs with
  | same => exact ⟨rfl, rfl, rfl⟩
  | qkey data _ _ =>
    rcases dev.rotationHandleQkey_cases idx data with heq | ⟨rd, -, -, -, heq | heq⟩
    · rw [heq]
      exact ⟨rfl, rfl, rfl⟩
    · rw [heq]
      exact ⟨rfl, rfl, rfl⟩
    · rw [heq]
      exact ⟨updateRecord_contacts .., updateRecord_replyQueues .., updateRecord_ourQueue ..⟩
  | qtest _ hactive hidx _ =>
    have hcounted : SameCredentials dev (dev.qtestCounted idx) := by
      have hmarked : SameCredentials dev (dev.markState idx .done) := by
        rw [markState_eq hidx]
        exact ⟨updateRecord_contacts .., updateRecord_replyQueues .., updateRecord_ourQueue ..⟩
      exact ⟨hmarked.contacts, hmarked.replyQueues, hmarked.ourQueue⟩
    rcases rotationMarkQtestReceived_cases (hrecords hactive) hidx with ⟨-, heq⟩ | ⟨-, heq⟩
    · rw [heq]
      exact hcounted
    · rw [heq]
      exact ⟨hcounted.contacts, hcounted.replyQueues, hcounted.ourQueue⟩

/-- What a message changes: the records of an active rotation, or the rotation is over. -/
theorem MsgStep.rotation {taken : Prop} {idx : ℕ} {d : RotationDevice}
    (hrecords : dev.ctx.active = true → dev.records.isSome = true) (hs : MsgStep taken idx dev d) :
    d.history = dev.history ∧ (d.ctx.active = false ∨
      ((∃ n, d.ctx = { dev.ctx with contactsDone := n }) ∧ d.records.isSome = dev.records.isSome ∧
        ∀ i, Evolves X (dev.record i) (d.record i))) := by
  have hsame : ∀ d : RotationDevice, d.ctx = dev.ctx →
      ∃ n, d.ctx = { dev.ctx with contactsDone := n } := fun d h => ⟨dev.ctx.contactsDone, h⟩
  cases hs with
  | same => exact ⟨rfl, .inr ⟨hsame _ rfl, rfl, fun i => Evolves.refl X _⟩⟩
  | qkey data hactive _ =>
    have hsome := hrecords hactive
    rcases dev.rotationHandleQkey_cases idx data with heq | ⟨rd, hkeys, -, hstate, heq | heq⟩
    · rw [heq]
      exact ⟨rfl, .inr ⟨hsame _ rfl, rfl, fun i => Evolves.refl X _⟩⟩
    · rw [heq]
      refine ⟨rfl, .inr ⟨hsame _ rfl, ?_, fun i => ?_⟩⟩
      · rw [setRecord, Option.isSome_map]
      · obtain ⟨rs, hrs⟩ := Option.isSome_iff_exists.1 hsome
        have hrecord : (dev.setRecord idx rd).record i = Function.update rs idx rd i := by
          rw [record, setRecord, hrs]
          rfl
        rw [record_of_some hrs] at hkeys ⊢
        rw [hrecord]
        by_cases hi : i = idx
        · subst hi
          rw [Function.update_self]
          exact hkeys.evolves
        · rw [Function.update_of_ne hi]
          exact Evolves.refl X _
    · rw [heq]
      refine ⟨updateRecord_history .., .inr ⟨hsame _ (updateRecord_ctx ..),
        updateRecord_records_isSome .., fun i => ?_⟩⟩
      by_cases hi : i = idx
      · subst hi
        rw [updateRecord_record_self hsome]
        exact .of_main hkeys.main (by rcases hstate with h | h <;> simp [h]) (by simp)
      · rw [updateRecord_record_of_ne hi]
        exact Evolves.refl X _
  | qtest _ hactive hidx hstate =>
    have hsome := hrecords hactive
    rw [getContactState_eq hidx] at hstate
    have hmarked := dev.markState_eq hidx .done
    have hhistory : (dev.qtestCounted idx).history = dev.history := by
      change (dev.markState idx .done).history = _
      rw [hmarked, updateRecord_history]
    rcases rotationMarkQtestReceived_cases hsome hidx with ⟨-, heq⟩ | ⟨-, heq⟩
    · rw [heq]
      refine ⟨hhistory, .inr ⟨⟨_, rfl⟩, ?_, fun i => ?_⟩⟩
      · change (dev.markState idx .done).records.isSome = _
        rw [hmarked, updateRecord_records_isSome]
      · change Evolves X (dev.record i) ((dev.markState idx .done).record i)
        rw [hmarked]
        by_cases hi : i = idx
        · subst hi
          rw [updateRecord_record_self hsome]
          exact .of_main rfl (by simp [hstate]) (by simp)
        · rw [updateRecord_record_of_ne hi]
          exact Evolves.refl X _
    · rw [heq]
      exact ⟨hhistory, .inl rfl⟩

/-- So does the start of a rotation. -/
theorem SameCredentials.rotationStart (idx : UInt8) (srv : SmpServer) :
    SameCredentials dev (dev.rotationStart idx srv).1 := by
  rw [RotationDevice.rotationStart]
  split
  · exact ⟨rfl, rfl, rfl⟩
  · split
    · exact ⟨smpServersSetActive_contacts idx, smpServersSetActive_replyQueues idx,
        smpServersSetActive_ourQueue idx⟩
    · exact ⟨rfl, rfl, rfl⟩

/-- And a confirmation. -/
theorem SameCredentials.sendAgentConfirmation (idx : ℕ) :
    SameCredentials dev (dev.sendAgentConfirmation idx) := by
  rw [RotationDevice.sendAgentConfirmation]
  split
  · split <;> exact ⟨rfl, rfl, rfl⟩
  · exact ⟨rfl, rfl, rfl⟩

end RotationDevice

end SimpleGo
