import SimpleGo.Lib.Logged
import SimpleGo.Rotation.LiveSwitch
import SimpleGo.Rotation.MessageLoss

/-!
# The life cycle of the rotation module

The functions of the rotation module in any order, with the array of per-contact records that is
allocated by `rotation_init` or `rotation_start`, which may fail, and freed after the last QTEST.
Each function that gets to the array logs whether it is allocated there; some check it themselves,
some rely on the global state, and some on their callers.
-/

namespace SimpleGo

open Lib

/-- The rotation module, with `s_initialized`. -/
structure RotationLife where
  dev : RotationDevice
  initialized : Bool

/-- A call of the module, with what the allocator and the caller decide; or the world around it
changes. -/
inductive RotationCall where
  | init (alloc : Bool)
  | start (idx : UInt8) (srv : SmpServer) (alloc : Bool)
  | createQueueForContact (idx : ℕ) (mainKeys rqKeys : NewQueueKeys)
  | completeQueueCreation (idx : ℕ) (ids : NewQueueIds)
  | completeRqCreation (idx : ℕ) (ids : NewQueueIds)
  | buildQaddPayload (idx size : ℕ)
  | handleQkey (idx : ℕ) (data : List UInt8)
  | markQaddSent (idx : ℕ)
  | buildQusePayload (idx size : ℕ)
  | markKeySent (idx : ℕ)
  | markQuseSent (idx : ℕ)
  | markQtestReceived (idx : ℕ)
  | getContactState (idx : ℕ)
  | getContactData (idx : ℕ)
  | hasPending
  | complete
  | abort
  /-- A reboot, in front of `rotation_init`. -/
  | reboot
  /-- Contacts, reply queues, our queue and the servers change. -/
  | world (contacts : ℕ → Contact) (replyQueues : ℕ → ReplyQueue) (ourQueue : OurQueue)
      (serverCount : ℕ)

namespace RotationDevice

variable (dev : RotationDevice)

/-- An access to `s_contacts`: whether it is allocated. -/
def access : Logged Bool Unit := Logged.note [dev.records.isSome]

/-- `load_contact_data` for every contact, into the array. -/
def loadContactData (rs : ℕ → RotationContactData) : ℕ → RotationContactData := fun i =>
  if i < maxContacts then
    match dev.nvs (.rotC i) with
    | none => rs i
    | some (.record rd) => rd
    | some _ => .zero
  else rs i

end RotationDevice

namespace RotationLife

variable (s : RotationLife)

/-- `rotation_init`. -/
def rotationInit (alloc : Bool) : Logged Bool RotationLife :=
  if s.initialized then pure s
  else
    let cleared := { s.dev with ctx := .zero }
    let records : Option (ℕ → RotationContactData) :=
      if cleared.records = none ∧ alloc then some fun _ => .zero else cleared.records
    match records with
    | none => pure { s with dev := cleared }
    | some rs =>
      match RotationDevice.loadedContext s.dev.nvs with
      | none => pure ⟨{ cleared with records := some rs }, true⟩
      | some ctx => do
        let loaded := { cleared with ctx := ctx, records := some (s.dev.loadContactData rs) }
        loaded.access
        pure ⟨loaded, true⟩

/-- `rotation_start`, and what it returns. The context is set in front of the allocation. -/
def rotationStart (idx : UInt8) (srv : SmpServer) (alloc : Bool) :
    Logged Bool (RotationLife × Bool) :=
  if s.dev.ctx.active ∨ s.dev.serverCount ≤ idx.toNat then pure (s, false)
  else if s.dev.activeSlots = [] then pure ({ s with dev := s.dev.smpServersSetActive idx }, true)
  else
    let started := { s.dev with ctx := s.dev.startedContext idx srv }
    if started.records = none ∧ alloc = false then pure ({ s with dev := started }, false)
    else do
      let zeroed := { started with records := some fun _ => .zero }
      zeroed.access
      pure (⟨{ zeroed with
        completeLogged := false
        history := .started :: zeroed.history }.saveContext,
        s.initialized || started.records.isNone⟩, true)

/-- A function of the module that goes to the array, and then changes the device. -/
def accessing (dev : RotationDevice) : Logged Bool RotationLife := do
  s.dev.access
  pure { s with dev := dev }

/-- `rotation_mark_qtest_received`; the array is freed with the last contact. -/
def rotationMarkQtestReceived (idx : ℕ) : Logged Bool RotationLife :=
  if s.dev.records = none ∨ maxContacts ≤ idx then pure s
  else do
    let marked := s.dev.rotationMarkQtestReceived idx
    s.dev.access
    pure ⟨marked, s.initialized && marked.records.isSome⟩

/-- The module after a call, and what `rotation_start` returns. -/
def call (X : Sodium) : RotationCall → Logged Bool (RotationLife × Bool)
  | .init alloc => do pure (← s.rotationInit alloc, true)
  | .start idx srv alloc => s.rotationStart idx srv alloc
  | .createQueueForContact idx mainKeys rqKeys =>
    if s.dev.ctx.active ∧ idx < maxContacts ∧ (s.dev.contacts idx).isActive then do
      pure (← s.accessing (s.dev.rotationCreateQueueForContact X idx mainKeys rqKeys), true)
    else pure (s, true)
  | .completeQueueCreation idx ids =>
    if maxContacts ≤ idx then pure (s, true)
    else do pure (← s.accessing (s.dev.rotationCompleteQueueCreation X idx ids).1, true)
  | .completeRqCreation idx ids =>
    if maxContacts ≤ idx then pure (s, true)
    else do pure (← s.accessing (s.dev.rotationCompleteRqCreation X idx ids).1, true)
  | .buildQaddPayload idx _ =>
    if maxContacts ≤ idx then pure (s, true) else do pure (← s.accessing s.dev, true)
  | .handleQkey idx data =>
    if maxContacts ≤ idx then pure (s, true)
    else do pure (← s.accessing (s.dev.rotationHandleQkey idx data), true)
  | .markQaddSent idx =>
    if maxContacts ≤ idx then pure (s, true)
    else do pure (← s.accessing (s.dev.rotationMarkQaddSent idx), true)
  | .buildQusePayload idx _ =>
    if s.dev.records = none ∨ maxContacts ≤ idx then pure (s, true)
    else do pure (← s.accessing s.dev, true)
  | .markKeySent idx =>
    if s.dev.records = none ∨ maxContacts ≤ idx then pure (s, true)
    else do pure (← s.accessing (s.dev.rotationMarkKeySent idx), true)
  | .markQuseSent idx =>
    if s.dev.records = none ∨ maxContacts ≤ idx then pure (s, true)
    else do pure (← s.accessing (s.dev.rotationMarkQuseSent idx), true)
  | .markQtestReceived idx => do pure (← s.rotationMarkQtestReceived idx, true)
  | .getContactState idx =>
    if s.dev.records = none ∨ maxContacts ≤ idx then pure (s, true)
    else do pure (← s.accessing s.dev, true)
  | .getContactData idx =>
    if s.dev.records = none ∨ maxContacts ≤ idx then pure (s, true)
    else do pure (← s.accessing s.dev, true)
  | .hasPending =>
    if s.dev.ctx.active = false ∨ s.dev.records = none then pure (s, true)
    else do pure (← s.accessing s.dev, true)
  | .complete => do pure (← s.accessing s.dev.rotationComplete, true)
  | .abort => do pure (← s.accessing s.dev.rotationAbort, true)
  | .reboot =>
    pure (⟨{ s.dev with
      ctx := .zero
      records := none
      rqSubsNeeded := false
      cqPeerE2e := none
      completeLogged := false }, false⟩, true)
  | .world contacts replyQueues ourQueue serverCount =>
    pure ({ s with dev := { s.dev with
      contacts := contacts
      replyQueues := replyQueues
      ourQueue := ourQueue
      serverCount := serverCount } }, true)

/-- The module after a call. -/
def step (X : Sodium) (s : RotationLife) (c : RotationCall) : RotationLife := (s.call X c).val.1

/-- A rotation that is active has its array. -/
def Allocated : Prop := s.dev.ctx.active = true → s.dev.records.isSome = true

/-- What a call should do: it goes to the array only when there is one, a start that fails leaves
everything as it was, and a rotation that is active afterwards has its array. -/
structure CallRight (X : Sodium) (s : RotationLife) (c : RotationCall) : Prop where
  accesses : (s.call X c).All (· = true)
  startFails : ∀ idx srv alloc, c = .start idx srv alloc → (s.call X c).val.2 = false →
    s.step X c = s
  allocated : (s.step X c).Allocated

end RotationLife

/-- The condition on a call: a start that needs memory finds it, and the functions that do not
check the array themselves are called while there is one. -/
def RotationCall.Allowed (s : RotationLife) : RotationCall → Prop
  | .start idx _ alloc =>
    alloc = true ∨ s.dev.records ≠ none ∨ s.dev.ctx.active = true ∨
      s.dev.serverCount ≤ idx.toNat ∨ s.dev.activeSlots = []
  | .completeQueueCreation idx _ | .completeRqCreation idx _ | .buildQaddPayload idx _
  | .handleQkey idx _ | .markQaddSent idx => maxContacts ≤ idx ∨ s.dev.records ≠ none
  | .complete | .abort => s.dev.records ≠ none
  | _ => True

/-- Whether a call meets its condition can be computed. -/
instance RotationCall.decidableAllowed (s : RotationLife) :
    ∀ c, Decidable (RotationCall.Allowed s c)
  | .start idx _ alloc => inferInstanceAs (Decidable
    (alloc = true ∨ s.dev.records ≠ none ∨ s.dev.ctx.active = true ∨
      s.dev.serverCount ≤ idx.toNat ∨ s.dev.activeSlots = []))
  | .completeQueueCreation idx _ | .completeRqCreation idx _ | .buildQaddPayload idx _
  | .handleQkey idx _ | .markQaddSent idx =>
    inferInstanceAs (Decidable (maxContacts ≤ idx ∨ s.dev.records ≠ none))
  | .complete | .abort => inferInstanceAs (Decidable (s.dev.records ≠ none))
  | .init _ | .createQueueForContact .. | .buildQusePayload .. | .markKeySent _ | .markQuseSent _
  | .markQtestReceived _ | .getContactState _ | .getContactData _ | .hasPending | .reboot
  | .world .. => isTrue trivial

/-! ### The functions keep the array -/

namespace RotationDevice

variable {X : Sodium} {dev : RotationDevice}

/-- The state and the array stay as they are, or the rotation is over. -/
def KeepsArray (dev dev' : RotationDevice) : Prop :=
  dev'.ctx.active = true → dev.ctx.active = true ∧ (dev.records.isSome = true →
    dev'.records.isSome = true)

/-- An update of a record. -/
theorem keepsArray_updateRecord (idx : ℕ) (rd : RotationContactData) :
    dev.KeepsArray (dev.updateRecord idx rd) := fun hactive =>
  ⟨by rwa [updateRecord_ctx] at hactive, fun hsome => by rwa [updateRecord_records_isSome]⟩

/-- A device keeps its own array. -/
theorem keepsArray_self : dev.KeepsArray dev := fun hactive => ⟨hactive, id⟩

/-- The functions for one contact update its record. -/
theorem keepsArray_create (idx : ℕ) (mainKeys rqKeys : NewQueueKeys) :
    dev.KeepsArray (dev.rotationCreateQueueForContact X idx mainKeys rqKeys) := by
  rw [rotationCreateQueueForContact]
  split
  · exact keepsArray_updateRecord _ _
  · exact keepsArray_self

/-- The ids of a contact queue leave it. -/
theorem keepsArray_completeQueue (idx : ℕ) (ids : NewQueueIds) :
    dev.KeepsArray (dev.rotationCompleteQueueCreation X idx ids).1 := by
  rw [rotationCompleteQueueCreation]
  split
  · exact keepsArray_self
  · dsimp only
    split <;> exact keepsArray_updateRecord _ _

/-- So do the ids of a reply queue. -/
theorem keepsArray_completeRq (idx : ℕ) (ids : NewQueueIds) :
    dev.KeepsArray (dev.rotationCompleteRqCreation X idx ids).1 := by
  rw [rotationCompleteRqCreation]
  split
  · exact keepsArray_self
  · dsimp only
    split <;> exact keepsArray_updateRecord _ _

/-- So does a mark. -/
theorem keepsArray_markState (idx : ℕ) (state : RotationContactState) :
    dev.KeepsArray (dev.markState idx state) := by
  rw [markState]
  split
  · exact keepsArray_self
  · exact keepsArray_updateRecord _ _

/-- So does a QKEY. -/
theorem keepsArray_handleQkey (idx : ℕ) (data : List UInt8) :
    dev.KeepsArray (dev.rotationHandleQkey idx data) := by
  rw [rotationHandleQkey]
  dsimp only
  split
  · exact keepsArray_self
  · split
    · exact keepsArray_updateRecord _ _
    · exact fun hactive => ⟨hactive, fun hsome => by rwa [setRecord, Option.isSome_map]⟩

/-- The end of a rotation frees no array of one that goes on. -/
theorem keepsArray_complete : dev.KeepsArray dev.rotationComplete := by
  intro hactive
  rcases dev.rotationComplete_rotation with hover | ⟨hctx, hrecords⟩
  · exact nomatch hover.symm.trans hactive
  · rw [hrecords]
    exact ⟨by rwa [hctx] at hactive, id⟩

/-- Neither does an abort. -/
theorem keepsArray_abort : dev.KeepsArray dev.rotationAbort :=
  fun hactive => nomatch hactive

end RotationDevice

/-! ### One call -/

namespace RotationLife

variable {X : Sodium} {s : RotationLife} {c : RotationCall}

/-- A call that returns at once is right. -/
theorem callRight_pure (hcall : s.call X c = pure (s, true)) (h : s.Allocated) :
    s.CallRight X c where
  accesses := by
    rw [hcall]
    exact Logged.all_pure _
  startFails := by
    intro _ _ _ _ hfails
    rw [hcall] at hfails
    cases hfails
  allocated := by
    rw [step, hcall]
    exact h

/-- A call that goes to the array is right when there is one. -/
theorem callRight_accessing {dev : RotationDevice}
    (hcall : s.call X c = do pure (← s.accessing dev, true)) (hkeeps : s.dev.KeepsArray dev) :
    s.CallRight X c ↔ s.dev.records ≠ none := by
  rw [← Option.isSome_iff_ne_none]
  have hlog : (s.call X c).log = [s.dev.records.isSome] := by rw [hcall]; rfl
  have hval : (s.call X c).val = ({ s with dev := dev }, true) := by rw [hcall]; rfl
  constructor
  · intro hright
    exact hright.accesses _ (by rw [hlog]; exact List.mem_singleton.mpr rfl)
  · intro hsome
    refine ⟨fun e he => ?_, fun _ _ _ _ hfails => ?_, fun hactive => ?_⟩
    · rw [hlog, List.mem_singleton] at he
      rw [he, hsome]
    · rw [hval] at hfails
      cases hfails
    · rw [step, hval] at hactive ⊢
      exact (hkeeps hactive).2 hsome

/-- A call that goes to the array unless its index is out of range. -/
theorem callRight_ranged {idx : ℕ} {dev : RotationDevice} (h : s.Allocated)
    (hcall : s.call X c = if maxContacts ≤ idx then pure (s, true)
      else do pure (← s.accessing dev, true)) (hkeeps : s.dev.KeepsArray dev) :
    s.CallRight X c ↔ maxContacts ≤ idx ∨ s.dev.records ≠ none := by
  by_cases hrange : maxContacts ≤ idx
  · rw [if_pos hrange] at hcall
    exact ⟨fun _ => .inl hrange, fun _ => callRight_pure hcall h⟩
  · rw [if_neg hrange] at hcall
    rw [callRight_accessing hcall hkeeps]
    exact ⟨.inr, fun hor => hor.resolve_left hrange⟩

/-- A call that checks for the array is right. -/
theorem callRight_checked {p : Prop} [Decidable p] {dev : RotationDevice} (h : s.Allocated)
    (hcall : s.call X c = if s.dev.records = none ∨ p then pure (s, true)
      else do pure (← s.accessing dev, true)) (hkeeps : s.dev.KeepsArray dev) :
    s.CallRight X c := by
  by_cases hcheck : s.dev.records = none ∨ p
  · rw [if_pos hcheck] at hcall
    exact callRight_pure hcall h
  · rw [if_neg hcheck] at hcall
    exact (callRight_accessing hcall hkeeps).mpr fun hnone => hcheck (.inl hnone)

/-- A call that always succeeds is right when its accesses and the state afterwards are. -/
theorem callRight_of_val {x : Logged Bool RotationLife}
    (hcall : s.call X c = do pure (← x, true)) (haccesses : x.All (· = true))
    (hallocated : x.val.Allocated) : s.CallRight X c where
  accesses := by
    rw [hcall]
    exact (Logged.all_bind _ _).mpr ⟨haccesses, Logged.all_pure _⟩
  startFails := by
    intro _ _ _ _ hfails
    rw [hcall] at hfails
    cases hfails
  allocated := by
    rw [step, hcall]
    exact hallocated

/-- `rotation_init` is right, whether or not it finds memory. -/
theorem callRight_init (h : s.Allocated) (alloc : Bool) : s.CallRight X (.init alloc) := by
  have hright : (s.rotationInit alloc).All (· = true) ∧ (s.rotationInit alloc).val.Allocated := by
    rw [rotationInit]
    by_cases hinit : s.initialized = true
    · rw [if_pos hinit]
      exact ⟨Logged.all_pure _, h⟩
    · rw [if_neg hinit]
      dsimp only
      split
      · exact ⟨Logged.all_pure _, nofun⟩
      · split
        · exact ⟨Logged.all_pure _, nofun⟩
        · exact ⟨by simp [RotationDevice.access], fun _ => rfl⟩
  exact callRight_of_val rfl hright.1 hright.2

/-- A start that has its memory zeroes the array and saves the context. -/
theorem rotationStart_of_memory {idx : UInt8} (srv : SmpServer) {alloc : Bool}
    (haccepted : ¬ (s.dev.ctx.active = true ∨ s.dev.serverCount ≤ idx.toNat))
    (hcontacts : s.dev.activeSlots ≠ []) (hmemory : ¬ (s.dev.records = none ∧ alloc = false)) :
    s.rotationStart idx srv alloc =
      (do
        let zeroed := { s.dev with
          ctx := s.dev.startedContext idx srv
          records := some fun _ => .zero }
        zeroed.access
        pure (⟨{ zeroed with
          completeLogged := false
          history := .started :: zeroed.history }.saveContext,
          s.initialized || s.dev.records.isNone⟩, true)) := by
  rw [rotationStart, if_neg haccepted, if_neg hcontacts]
  exact if_neg hmemory

/-- `rotation_start` is right exactly when it finds the memory it needs. -/
theorem callRight_start (h : s.Allocated) (idx : UInt8) (srv : SmpServer) (alloc : Bool) :
    s.CallRight X (.start idx srv alloc) ↔ (RotationCall.start idx srv alloc).Allowed s := by
  by_cases hrefused : s.dev.ctx.active = true ∨ s.dev.serverCount ≤ idx.toNat
  · have hcall : s.call X (.start idx srv alloc) = pure (s, false) := if_pos hrefused
    refine ⟨fun _ => ?_, fun _ => ⟨?_, fun _ _ _ _ _ => ?_, ?_⟩⟩
    · exact .inr (.inr (hrefused.imp id .inl))
    · rw [hcall]
      exact Logged.all_pure _
    · rw [step, hcall]
      rfl
    · rw [step, hcall]
      exact h
  by_cases hempty : s.dev.activeSlots = []
  · have hcall : s.call X (.start idx srv alloc) =
        pure ({ s with dev := s.dev.smpServersSetActive idx }, true) := by
      change s.rotationStart idx srv alloc = _
      rw [rotationStart, if_neg hrefused, if_pos hempty]
    refine ⟨fun _ => .inr (.inr (.inr (.inr hempty))), fun _ => ?_⟩
    have hallocated : ({ s with dev := s.dev.smpServersSetActive idx } :
        RotationLife).Allocated := by
      intro hactive
      rw [RotationDevice.smpServersSetActive_records]
      rw [RotationDevice.smpServersSetActive_ctx] at hactive
      exact h hactive
    exact @callRight_of_val X s _ (pure { s with dev := s.dev.smpServersSetActive idx }) hcall
      (Logged.all_pure _) hallocated
  by_cases hmemory : s.dev.records = none ∧ alloc = false
  · have hcall : s.call X (.start idx srv alloc) =
        pure ({ s with dev := { s.dev with ctx := s.dev.startedContext idx srv } }, false) := by
      change s.rotationStart idx srv alloc = _
      rw [rotationStart, if_neg hrefused, if_neg hempty]
      exact if_pos hmemory
    refine ⟨fun hright => ?_, ?_⟩
    · have hallocated := hright.allocated
      rw [step, hcall] at hallocated
      have hsome : s.dev.records.isSome = true := hallocated rfl
      rw [hmemory.1] at hsome
      cases hsome
    · rintro (halloc | hsome | hactive | hcount | hnone)
      · exact nomatch hmemory.2.symm.trans halloc
      · exact absurd hmemory.1 hsome
      · exact absurd (.inl hactive) hrefused
      · exact absurd (.inr hcount) hrefused
      · exact absurd hnone hempty
  · refine ⟨fun _ => ?_, fun _ => ?_⟩
    · rcases not_and_or.mp hmemory with hsome | halloc
      · exact .inr (.inl hsome)
      · exact .inl (by simpa using halloc)
    · have hcall : s.call X (.start idx srv alloc) = _ :=
        rotationStart_of_memory srv hrefused hempty hmemory
      refine ⟨?_, fun _ _ _ _ hfails => ?_, ?_⟩
      · rw [hcall]
        simp [RotationDevice.access]
      · rw [hcall] at hfails
        cases hfails
      · rw [step, hcall]
        exact fun _ => rfl

/-- The last QTEST frees the array, and the rotation is over then. -/
theorem Allocated.markQtest (hsome : s.dev.records.isSome = true) {idx : ℕ}
    (hidx : idx < maxContacts) (initialized : Bool) :
    Allocated ⟨s.dev.rotationMarkQtestReceived idx, initialized⟩ := by
  rcases RotationDevice.rotationMarkQtestReceived_cases hsome hidx with ⟨_, hcounted⟩ | ⟨_, hover⟩
  · rw [hcounted]
    intro _
    change (s.dev.markState idx .done).records.isSome = true
    rwa [s.dev.markState_eq hidx, RotationDevice.updateRecord_records_isSome]
  · rw [hover]
    exact nofun

/-- A QTEST is right whenever it comes. -/
theorem callRight_qtest (h : s.Allocated) (idx : ℕ) :
    s.CallRight X (.markQtestReceived idx) := by
  have hright : (s.rotationMarkQtestReceived idx).All (· = true) ∧
      (s.rotationMarkQtestReceived idx).val.Allocated := by
    rw [rotationMarkQtestReceived]
    by_cases hcheck : s.dev.records = none ∨ maxContacts ≤ idx
    · rw [if_pos hcheck]
      exact ⟨Logged.all_pure _, h⟩
    · have hsome : s.dev.records.isSome = true :=
        Option.isSome_iff_ne_none.mpr fun hnone => hcheck (.inl hnone)
      rw [if_neg hcheck]
      refine ⟨by simp [RotationDevice.access, hsome], ?_⟩
      exact Allocated.markQtest hsome (Nat.lt_of_not_le fun hrange => hcheck (.inr hrange)) _
  exact callRight_of_val rfl hright.1 hright.2

/-- A call is right exactly when it meets its condition. -/
theorem callRight_iff (h : s.Allocated) (c : RotationCall) : s.CallRight X c ↔ c.Allowed s := by
  cases c with
  | init alloc => exact ⟨fun _ => trivial, fun _ => callRight_init h alloc⟩
  | start idx srv alloc => exact callRight_start h idx srv alloc
  | createQueueForContact idx mainKeys rqKeys =>
    refine ⟨fun _ => trivial, fun _ => ?_⟩
    by_cases hguard : s.dev.ctx.active ∧ idx < maxContacts ∧ (s.dev.contacts idx).isActive
    · have hcall : s.call X (.createQueueForContact idx mainKeys rqKeys) =
          (do pure (← s.accessing (s.dev.rotationCreateQueueForContact X idx mainKeys rqKeys),
            true)) := if_pos hguard
      exact (callRight_accessing hcall (RotationDevice.keepsArray_create idx mainKeys rqKeys)).mpr
        (Option.isSome_iff_ne_none.mp (h hguard.1))
    · exact callRight_pure (if_neg hguard) h
  | completeQueueCreation idx ids =>
    exact callRight_ranged h rfl (RotationDevice.keepsArray_completeQueue idx ids)
  | completeRqCreation idx ids =>
    exact callRight_ranged h rfl (RotationDevice.keepsArray_completeRq idx ids)
  | buildQaddPayload idx size => exact callRight_ranged h rfl RotationDevice.keepsArray_self
  | handleQkey idx data =>
    exact callRight_ranged h rfl (RotationDevice.keepsArray_handleQkey idx data)
  | markQaddSent idx =>
    exact callRight_ranged h rfl (RotationDevice.keepsArray_markState idx .qaddSent)
  | buildQusePayload idx size =>
    exact ⟨fun _ => trivial, fun _ => callRight_checked h rfl RotationDevice.keepsArray_self⟩
  | markKeySent idx =>
    exact ⟨fun _ => trivial, fun _ =>
      callRight_checked h rfl (RotationDevice.keepsArray_markState idx .keySent)⟩
  | markQuseSent idx =>
    exact ⟨fun _ => trivial, fun _ =>
      callRight_checked h rfl (RotationDevice.keepsArray_markState idx .quseSent)⟩
  | markQtestReceived idx => exact ⟨fun _ => trivial, fun _ => callRight_qtest h idx⟩
  | getContactState idx =>
    exact ⟨fun _ => trivial, fun _ => callRight_checked h rfl RotationDevice.keepsArray_self⟩
  | getContactData idx =>
    exact ⟨fun _ => trivial, fun _ => callRight_checked h rfl RotationDevice.keepsArray_self⟩
  | hasPending =>
    refine ⟨fun _ => trivial, fun _ => ?_⟩
    by_cases hguard : s.dev.ctx.active = false ∨ s.dev.records = none
    · exact callRight_pure (if_pos hguard) h
    · have hcall : s.call X .hasPending = (do pure (← s.accessing s.dev, true)) :=
        if_neg hguard
      exact (callRight_accessing hcall RotationDevice.keepsArray_self).mpr fun hnone =>
        hguard (.inr hnone)
  | complete => exact callRight_accessing rfl RotationDevice.keepsArray_complete
  | abort => exact callRight_accessing rfl RotationDevice.keepsArray_abort
  | reboot =>
    refine ⟨fun _ => trivial, fun _ => ⟨Logged.all_pure _, fun _ _ _ _ hfails => ?_, nofun⟩⟩
    cases hfails
  | world contacts replyQueues ourQueue serverCount =>
    refine ⟨fun _ => trivial, fun _ => ⟨Logged.all_pure _, fun _ _ _ _ hfails => ?_, h⟩⟩
    cases hfails

/-! ### Runs -/

/-- The calls of a run are all right exactly when all of them meet their condition. -/
theorem rotation_life_cycle_iff (X : Sodium) {s : RotationLife} (h : s.Allocated)
    (calls : List RotationCall) :
    StepsMeet (step X) (CallRight X) s calls ↔
      StepsMeet (step X) RotationCall.Allowed s calls := by
  have hkept : ∀ s c, Allocated s → s.CallRight X c → (s.step X c).Allocated :=
    fun _ _ _ hright => hright.allocated
  constructor
  · intro hright
    exact hright.invariant_step hkept (fun _ c hinv => (callRight_iff hinv c).mp) h
  · intro hallowed
    have hkept' : ∀ s c, Allocated s → c.Allowed s → (s.step X c).Allocated :=
      fun s c hinv hc => hkept s c hinv ((callRight_iff hinv c).mpr hc)
    exact hallowed.invariant_step hkept' (fun _ c hinv => (callRight_iff hinv c).mpr) h

end RotationLife

/-- A device with one contact, in front of `rotation_init`. -/
def sampleLife : RotationLife :=
  ⟨{ sampleRotation with
    contacts := fun i => if i = 0 then { Contact.zero with active := 1 } else .zero
    records := none }, false⟩

/-- A rotation of the contact, up to the QTEST that frees the array. -/
def sampleLifeCycle : List RotationCall :=
  [.init true, .start 1 sampleTarget true, .createQueueForContact 0 (sampleKeys 30) (sampleKeys 31),
    .completeRqCreation 0 (sampleIds 40), .completeQueueCreation 0 (sampleIds 50),
    .buildQaddPayload 0 1024, .markQaddSent 0, .markKeySent 0, .markQuseSent 0, .complete,
    .markQtestReceived 0, .markKeySent 0, .init true, .start 0 sampleTarget true, .abort]

set_option maxRecDepth 8192 in
/-- A whole rotation, and the start and the abort of another. -/
theorem rotation_life_cycle_sample :
    StepsMeet (RotationLife.step sampleSodium) (RotationLife.CallRight sampleSodium) sampleLife
      sampleLifeCycle :=
  (RotationLife.rotation_life_cycle_iff sampleSodium (fun h => absurd h (by decide))
    sampleLifeCycle).mpr (by decide)

/-- A start that finds no memory leaves an active rotation without an array. -/
theorem rotation_start_without_memory :
    ¬ StepsMeet (RotationLife.step sampleSodium) (RotationLife.CallRight sampleSodium) sampleLife
      [.init false, .start 1 sampleTarget false] := by
  rintro ⟨-, hstart, -⟩
  have hunchanged := hstart.startFails 1 sampleTarget false rfl (by decide)
  have hactive := congrArg (fun s => s.dev.ctx.active) hunchanged
  revert hactive
  decide

end SimpleGo
