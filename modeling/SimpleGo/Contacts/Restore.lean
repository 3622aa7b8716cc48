import SimpleGo.Contacts.Removal
import SimpleGo.Lib.Runs

/-!
# Contacts across reboots

`app_main` decides from the ratchet of slot 0 and the device's own queue whether a session is
restored; when it is not, `smp_connect` erases every contact record before it loads them. The
records themselves are written by the app task some time after a contact has been added. A
run interleaves the operations on contacts with reboots; the invariant is that, unless a
save is outstanding, the records of the active contacts are in NVS.
-/

namespace SimpleGo

open Lib

variable {K : Type}

/-- What the environment decides during a start-up. -/
structure BootEnv where
  /-- The queue `queue_create` makes when no session is restored. -/
  queueCreated : Option OurQueue
  /-- `smp_connect` gets as far as the contacts. -/
  connects : Bool
  /-- The NVS calls that succeed when an old contact table is stored in the new form. -/
  lands : ℕ → Bool

namespace ContactDevice

/-- The test before anything is restored. -/
def sessionStored (nvs : Nvs K) : Bool :=
  smpStorageExists nvs (ratKey 0) && smpStorageExists nvs "queue_our"

/-- `session_restored` after `app_main`. -/
def sessionRestored (nvs : Nvs K) : Bool :=
  sessionStored nvs && (ratchetLoadState nvs 0).isSome && (queueLoadCredentials nvs).isSome

/-- RAM after a reset. -/
def resetRam (P : Primitives K) (dev : ContactDevice K) : ContactDevice K :=
  { blank P with nvs := dev.nvs }

/-- `app_main` up to `smp_connect`: what can be loaded is loaded even when the session is not
restored as a whole. -/
def restoreSession (P : Primitives K) (dev : ContactDevice K) (env : BootEnv) :
    ContactDevice K :=
  let base := dev.resetRam P
  let loaded := if sessionStored dev.nvs then
    { base with
      ratchetState := (ratchetLoadState dev.nvs 0).getD base.ratchetState
      ourQueue := queueLoadCredentials dev.nvs }.handshakeLoadState
    else base
  if sessionRestored dev.nvs then
    let queues := loaded.replyQueuesLoadAll
    { queues with ratchetState :=
        { queues.ratchetState with pq := pqNvsLoad dev.nvs 0 queues.ratchetState.pq } }
  else
    match env.queueCreated with
    | none => loaded
    | some queue =>
      { loaded with ourQueue := some queue, nvs := loaded.nvs.put "queue_our" (.ourQueue queue) }

/-- A start-up: `app_main`, then the contact step of `smp_connect`. -/
def appMain (P : Primitives K) (dev : ContactDevice K) (env : BootEnv) : ContactDevice K :=
  let started := dev.restoreSession P env
  if !env.connects then started
  else if sessionRestored dev.nvs then started.loadContactsFromNvs env.lands
  else started.clearAllContacts.loadContactsFromNvs env.lands

/-- The display name a peer sends is stored with the contact. -/
def renameContact (dev : ContactDevice K) (slot : ℕ) (name : Bytes 32) (lands : Bool) :
    ContactDevice K :=
  if slot < maxContacts ∧ (dev.contacts slot).isActive then
    { dev with
      contacts := Function.update dev.contacts slot { dev.contacts slot with name := name }
      }.saveContactSingle slot lands
  else dev

end ContactDevice

/-- A step of the contact side of the device. -/
inductive ContactAction (K : Type) where
  | addContact (keys : ContactDevice.ContactKeys) (ids : Option ContactDevice.QueueIds)
      (queue : ReplyQueue)
  | rename (slot : ℕ) (name : Bytes 32) (lands : Bool)
  /-- A handshake or a message leaves a ratchet state for its slot. A KEM request carried out
  late does so too, with no write. -/
  | saveSession (slot : ℕ) (st : RatchetState K) (lands : ℕ → Bool)
  /-- A sent message leaves the counters of the active handshake entry. -/
  | saveHandshake (entry : HandshakeEntry)
  | savePeer (slot : ℕ) (peer : PeerQueue)
  /-- `ratchet_set_active` and `handshake_set_active`. -/
  | select (slot : ℕ)
  | deferredWork (lands : ℕ → Bool) (queueLands : Bool)
  | abort (slot : ℕ)
  | removeContact (index : ℕ) (confirmed : Bool) (lands : ℕ → Bool)
  | reboot (env : BootEnv)

/-- The device after a step. A selection after the contact in use was removed writes behind the
ratchet table (`ContactDevice.putBack`); what that overwrites is not followed here. -/
def ContactDevice.step (P : Primitives K) (dev : ContactDevice K) :
    ContactAction K → ContactDevice K
  | .addContact keys ids queue => dev.cmdAddContact keys ids queue
  | .rename slot name lands => dev.renameContact slot name lands
  | .saveSession slot st lands =>
    { dev with
      ratchetState := st
      nvs := dev.nvs.putAll (Store.landed lands (ratchetSaveState slot st ++ pqNvsSave slot st.pq)) }
  | .saveHandshake entry =>
    { dev with
      handshakes := Function.update dev.handshakes dev.activeHandshakeIdx entry
      }.handshakeSaveState
  | .savePeer slot peer => { dev with nvs := dev.nvs.put (peerKey slot) (.peer peer) }
  | .select slot => (dev.ratchetSetActive slot).handshakeSetActive slot
  | .deferredWork lands queueLands => dev.processDeferredWork lands queueLands
  | .abort slot => dev.abortPendingContact slot
  | .removeContact index confirmed lands => (dev.removeContact P index confirmed lands).1
  | .reboot env => dev.appMain P env

/-- An active contact of a slot: its record is in RAM, or still only in NVS. -/
def ContactAt (dev : ContactDevice K) (slot : ℕ) (c : Contact) : Prop :=
  c.isActive = true ∧ (dev.contacts slot = c ∨ dev.nvs (cntKey slot) = some (.contact c))

/-- A start-up loads every active contact and leaves all that is stored for it. -/
def RestoresContacts (P : Primitives K) (dev : ContactDevice K) (env : BootEnv) : Prop :=
  ∀ j < maxContacts, ∀ c, ContactAt dev j c →
    (dev.appMain P env).contacts j = c ∧
      ∀ key ∈ savedKeys j, (dev.appMain P env).nvs key = dev.nvs key

/-- The records of the active contacts are in NVS. -/
def ActiveSaved (dev : ContactDevice K) : Prop :=
  ∀ j < maxContacts, (dev.contacts j).isActive = true →
    dev.nvs (cntKey j) = some (.contact (dev.contacts j))

/-- There is no contact, or slot 0 and the device's queue can be restored, an outstanding
save has nothing left to do and the server is reached. -/
def RebootSafe (dev : ContactDevice K) (env : BootEnv) : Prop :=
  (∀ j < maxContacts, ∀ c, ¬ ContactAt dev j c) ∨
    (ContactDevice.sessionRestored dev.nvs = true ∧
      (dev.contactsDirty = true → ActiveSaved dev) ∧ env.connects = true)

/-- Reboots are safe, and NVS takes the records it is given. -/
def ContactAction.Safe (dev : ContactDevice K) : ContactAction K → Prop
  | .rename _ _ lands => lands = true
  | .deferredWork lands _ => ∀ j, lands j = true
  | .removeContact _ _ lands => ∀ j, lands j = true
  | .reboot env => RebootSafe dev env ∧ ∀ j, env.lands j = true
  | _ => True

/-- Unless a save is outstanding, the active records are in NVS. -/
def RecordsSaved (dev : ContactDevice K) : Prop :=
  dev.contactsDirty = false → ActiveSaved dev

/-! ### What the steps do to the records -/

/-- Selecting a ratchet leaves NVS and the records. -/
theorem ratchetSetActive_records (dev : ContactDevice K) (idx : ℕ) :
    (dev.ratchetSetActive idx).nvs = dev.nvs ∧
      (dev.ratchetSetActive idx).contacts = dev.contacts ∧
      (dev.ratchetSetActive idx).contactsDirty = dev.contactsDirty := by
  rw [ContactDevice.ratchetSetActive]
  by_cases hidx : maxContacts ≤ idx
  · rw [if_pos hidx]
    exact ⟨rfl, rfl, rfl⟩
  · rw [if_neg hidx]
    dsimp only
    by_cases hinit : (dev.putBack idx).initialized = true
    · rw [if_pos hinit]
      exact ⟨rfl, rfl, rfl⟩
    · rw [if_neg hinit]
      cases ratchetReload dev.nvs idx <;> exact ⟨rfl, rfl, rfl⟩

/-- Loading a handshake entry leaves NVS and the records. -/
theorem handshakeLoadState_records (dev : ContactDevice K) :
    dev.handshakeLoadState.nvs = dev.nvs ∧ dev.handshakeLoadState.contacts = dev.contacts ∧
      dev.handshakeLoadState.contactsDirty = dev.contactsDirty := by
  rw [ContactDevice.handshakeLoadState]
  cases ContactDevice.storedHandshake dev.nvs dev.activeHandshakeIdx <;> exact ⟨rfl, rfl, rfl⟩

/-- Selecting a handshake entry writes at most the key of the entry left. -/
theorem handshakeSetActive_records (dev : ContactDevice K) (idx : ℕ) :
    (dev.handshakeSetActive idx).contacts = dev.contacts ∧
      (dev.handshakeSetActive idx).contactsDirty = dev.contactsDirty ∧
      ∀ key, key ≠ handKey dev.activeHandshakeIdx →
        (dev.handshakeSetActive idx).nvs key = dev.nvs key := by
  rw [ContactDevice.handshakeSetActive]
  by_cases hidx : maxContacts ≤ idx
  · rw [if_pos hidx]
    exact ⟨rfl, rfl, fun _ _ => rfl⟩
  · rw [if_neg hidx]
    dsimp only
    obtain ⟨hnvs, hcontacts, hdirty⟩ := handshakeLoadState_records
      { (if dev.activeHandshakeIdx ≠ idx then dev.handshakeSaveState else dev) with
        activeHandshakeIdx := idx }
    rw [hnvs, hcontacts, hdirty]
    by_cases hactive : dev.activeHandshakeIdx ≠ idx
    · rw [if_pos hactive]
      exact ⟨rfl, rfl, fun key hkey => Store.put_of_ne _ _ hkey⟩
    · rw [if_neg hactive]
      exact ⟨rfl, rfl, fun _ _ => rfl⟩

/-- Saving all records saves the active ones. -/
theorem activeSaved_save (dev : ContactDevice K) {lands : ℕ → Bool}
    (hlands : ∀ j, lands j = true) : ActiveSaved (dev.saveContactsToNvs lands) := by
  obtain rfl : lands = fun _ => true := funext hlands
  intro j hj hactive
  rw [saveContactsToNvs_nvs, Store.setFamily_key _ _ _ cntKey_injOn hj]
  change (dev.contacts j).isActive = true at hactive
  change recordBlob dev.contacts j = some (.contact (dev.contacts j))
  rw [recordBlob, if_pos hactive]

/-- Records stay saved while their keys do and no other contact becomes active. -/
theorem ActiveSaved.of_same {dev dev' : ContactDevice K} (h : ActiveSaved dev)
    (hcontacts : ∀ j, (dev'.contacts j).isActive = true → dev'.contacts j = dev.contacts j)
    (hnvs : ∀ j, dev'.nvs (cntKey j) = dev.nvs (cntKey j)) : ActiveSaved dev' := by
  intro j hj hactive
  have hsame := hcontacts j hactive
  rw [hsame] at hactive
  rw [hnvs, hsame, h j hj hactive]

/-- The same with a save outstanding. -/
theorem RecordsSaved.of_same {dev dev' : ContactDevice K} (h : RecordsSaved dev)
    (hdirty : dev'.contactsDirty = dev.contactsDirty)
    (hcontacts : ∀ j, (dev'.contacts j).isActive = true → dev'.contacts j = dev.contacts j)
    (hnvs : ∀ j, dev'.nvs (cntKey j) = dev.nvs (cntKey j)) : RecordsSaved dev' := by
  intro hclean
  rw [hdirty] at hclean
  exact (h hclean).of_same hcontacts hnvs

/-- Adding a contact writes nothing. -/
theorem cmdAddContact_nvs (dev : ContactDevice K) (keys : ContactDevice.ContactKeys)
    (ids : Option ContactDevice.QueueIds) (queue : ReplyQueue) :
    (dev.cmdAddContact keys ids queue).nvs = dev.nvs := by
  rw [ContactDevice.cmdAddContact, ContactDevice.addContact]
  cases dev.freeSlot with
  | none => rfl
  | some slot => cases ids <;> rfl

/-- Adding a contact leaves a save outstanding, or no contact. -/
theorem RecordsSaved.addContact {dev : ContactDevice K} (h : RecordsSaved dev)
    (keys : ContactDevice.ContactKeys) (ids : Option ContactDevice.QueueIds)
    (queue : ReplyQueue) : RecordsSaved (dev.cmdAddContact keys ids queue) := by
  rw [ContactDevice.cmdAddContact, ContactDevice.addContact]
  cases dev.freeSlot with
  | none => exact h
  | some slot =>
    cases ids with
    | some ids => exact fun hclean => absurd hclean Bool.noConfusion
    | none =>
      refine h.of_same rfl ?_ fun _ => rfl
      intro j hactive
      by_cases hj : j = slot
      · subst hj
        change ((Function.update dev.contacts j (ContactDevice.draftContact keys)) j).isActive = true
          at hactive
        rw [Function.update_self] at hactive
        cases hactive
      · exact Function.update_of_ne hj ..

/-- A rename saves the record it changes. -/
theorem RecordsSaved.rename {dev : ContactDevice K} (h : RecordsSaved dev) (slot : ℕ)
    (name : Bytes 32) : RecordsSaved (dev.renameContact slot name true) := by
  rw [ContactDevice.renameContact]
  by_cases hslot : slot < maxContacts ∧ (dev.contacts slot).isActive = true
  · rw [if_pos hslot]
    have hrenamed : ((Function.update dev.contacts slot
        { dev.contacts slot with name := name }) slot).isActive = true := by
      rw [Function.update_self]
      exact hslot.2
    simp only [ContactDevice.saveContactSingle, hslot.1, hrenamed, true_and, if_true]
    intro hclean j hj hactive
    by_cases hjs : j = slot
    · subst hjs
      exact Store.put_self ..
    · have hkey : cntKey j ≠ cntKey slot := fun he =>
        hjs (cntKey_injOn j hj slot hslot.1 he)
      dsimp only at hactive hclean ⊢
      rw [Function.update_of_ne hjs] at hactive ⊢
      rw [Store.put_of_ne _ _ hkey]
      exact h hclean j hj hactive
  · rw [if_neg hslot]
    exact h

/-- The cleanup of an aborted invitation saves the records. -/
theorem ActiveSaved.abortCleanup {dev : ContactDevice K} (h : ActiveSaved dev)
    {lands : ℕ → Bool} (hlands : ∀ j, lands j = true) : ActiveSaved (dev.abortCleanup lands) := by
  rw [ContactDevice.abortCleanup]
  cases dev.pendingDeleteSlot with
  | none => exact h
  | some slot =>
    dsimp only
    by_cases hslot : slot < maxContacts
    · rw [if_pos hslot]
      exact activeSaved_save _ hlands
    · rw [if_neg hslot]
      exact h.of_same (fun _ _ => rfl) fun _ => rfl

/-- Saving a reply queue leaves the records. -/
theorem ActiveSaved.saveQueue {dev : ContactDevice K} (h : ActiveSaved dev) (lands : Bool) :
    ActiveSaved (dev.saveDeferredQueue lands) := by
  rw [ContactDevice.saveDeferredQueue]
  cases dev.rqSavePending with
  | none => exact h
  | some slot =>
    dsimp only
    rw [ContactDevice.replyQueueSave]
    by_cases hsave : slot < maxContacts ∧ (dev.replyQueues slot).valid = true ∧ lands = true
    · rw [if_pos hsave]
      refine h.of_same (fun _ _ => rfl) fun j => ?_
      have hkey : cntKey j ≠ rqKey slot := ne_of_keyFamily (by simp)
      exact Store.put_of_ne dev.nvs (.replyQueue (dev.replyQueues slot)) hkey
    · rw [if_neg hsave]
      exact h.of_same (fun _ _ => rfl) fun _ => rfl

/-- The deferred work leaves the records saved. -/
theorem RecordsSaved.deferredWork {dev : ContactDevice K} (h : RecordsSaved dev)
    {lands : ℕ → Bool} (hlands : ∀ j, lands j = true) (queueLands : Bool) :
    ActiveSaved (dev.processDeferredWork lands queueLands) := by
  have hfirst : ActiveSaved (dev.saveDirtyContacts lands) := by
    rw [ContactDevice.saveDirtyContacts]
    by_cases hdirty : dev.contactsDirty = true
    · rw [if_pos hdirty]
      exact activeSaved_save _ hlands
    · rw [if_neg hdirty]
      exact h (by simpa using hdirty)
  exact (hfirst.abortCleanup hlands).saveQueue queueLands

/-- With nothing else outstanding the deferred work saves the records. -/
theorem processDeferredWork_of_idle {dev : ContactDevice K} (hdirty : dev.contactsDirty = true)
    (hpending : dev.pendingDeleteSlot = none) (hqueue : dev.rqSavePending = none)
    (lands : ℕ → Bool) (queueLands : Bool) :
    dev.processDeferredWork lands queueLands =
      { dev with contactsDirty := false }.saveContactsToNvs lands := by
  rw [ContactDevice.processDeferredWork, ContactDevice.saveDirtyContacts, if_pos hdirty,
    ContactDevice.abortCleanup]
  simp only [ContactDevice.saveContactsToNvs, hpending]
  rw [ContactDevice.saveDeferredQueue]
  simp only [hqueue]

/-- Aborting an invitation changes no record that stays active. -/
theorem RecordsSaved.abort {dev : ContactDevice K} (h : RecordsSaved dev) (slot : ℕ) :
    RecordsSaved (dev.abortPendingContact slot) := by
  refine h.of_same rfl ?_ fun _ => rfl
  intro j hactive
  by_cases hj : j = slot
  · subst hj
    simp [ContactDevice.abortPendingContact, Contact.isActive] at hactive
  · exact Function.update_of_ne hj ..

/-- A removal saves the records that are left. -/
theorem RecordsSaved.remove {dev : ContactDevice K} (h : RecordsSaved dev) (P : Primitives K)
    (index : ℕ) (confirmed : Bool) {lands : ℕ → Bool} (hlands : ∀ j, lands j = true) :
    RecordsSaved (dev.removeContact P index confirmed lands).1 := by
  rw [ContactDevice.removeContact]
  by_cases hactive : ¬ (index < maxContacts ∧ (dev.contacts index).isActive = true)
  · rw [if_pos hactive]
    exact h
  · rw [if_neg hactive]
    cases confirmed with
    | false => exact h
    | true => exact fun _ => activeSaved_save _ hlands

/-- The writes of a session go to its own keys. -/
theorem putAll_session_of_family (nvs : Nvs K) (slot : ℕ) (st : RatchetState K) (lands : ℕ → Bool)
    {key : String} (hrat : keyFamily key ≠ ['r', 'a', 't']) (hpq : keyFamily key ≠ ['p', 'q', '_']) :
    nvs.putAll (Store.landed lands (ratchetSaveState slot st ++ pqNvsSave slot st.pq)) key =
      nvs key := by
  apply Store.putAll_of_forall_ne
  intro w hw
  have hmem := (Store.landed_sublist lands _).subset hw
  rcases List.mem_append.mp hmem with hsave | hsave
  · rw [mem_ratchetSaveState hsave]
    exact ne_of_keyFamily (by simpa using hrat.symm)
  · obtain ⟨field, -, hfield⟩ := mem_pqNvsSave hsave
    rw [hfield]
    exact ne_of_keyFamily (by simpa using hpq.symm)

/-- A saved session leaves the contact records. -/
theorem RecordsSaved.saveSession {dev : ContactDevice K} (h : RecordsSaved dev) (P : Primitives K)
    (slot : ℕ) (st : RatchetState K) (lands : ℕ → Bool) :
    RecordsSaved (dev.step P (.saveSession slot st lands)) := by
  refine h.of_same rfl (fun _ _ => rfl) fun j => ?_
  exact putAll_session_of_family dev.nvs slot st lands (by simp) (by simp)

/-- Selecting a slot writes at most a handshake key. -/
theorem RecordsSaved.select {dev : ContactDevice K} (h : RecordsSaved dev) (slot : ℕ) :
    RecordsSaved ((dev.ratchetSetActive slot).handshakeSetActive slot) := by
  obtain ⟨hnvs, hcontacts, hdirty⟩ := ratchetSetActive_records dev slot
  obtain ⟨hcontacts', hdirty', hkeys⟩ :=
    handshakeSetActive_records (dev.ratchetSetActive slot) slot
  refine h.of_same (hdirty'.trans hdirty) ?_ ?_
  · intro j _
    rw [hcontacts', hcontacts]
  · intro j
    rw [hkeys _ (ne_of_keyFamily (by simp)), hnvs]

/-! ### Start-ups -/

/-- Before `smp_connect` only the device's own queue may be written, and the tables are empty. -/
theorem restoreSession_records (P : Primitives K) (dev : ContactDevice K) (env : BootEnv) :
    (∀ j, (dev.restoreSession P env).contacts j = .zero) ∧
      (dev.restoreSession P env).contactsDirty = false ∧
      (∀ key, key ≠ "queue_our" → (dev.restoreSession P env).nvs key = dev.nvs key) ∧
      (ContactDevice.sessionRestored dev.nvs = true →
        (dev.restoreSession P env).nvs = dev.nvs) := by
  -- The loads before the decision change neither NVS nor the contact table.
  have hloaded : ∀ base : ContactDevice K, base.contacts = (fun _ => .zero) →
      base.contactsDirty = false → base.nvs = dev.nvs → ∀ ratchet queue stored,
      (if stored = true then
        ({ base with ratchetState := ratchet, ourQueue := queue } : ContactDevice K).handshakeLoadState
        else base).contacts = (fun _ => .zero) ∧
      (if stored = true then
        ({ base with ratchetState := ratchet, ourQueue := queue } : ContactDevice K).handshakeLoadState
        else base).contactsDirty = false ∧
      (if stored = true then
        ({ base with ratchetState := ratchet, ourQueue := queue } : ContactDevice K).handshakeLoadState
        else base).nvs = dev.nvs := by
    intro base hcontacts hdirty hnvs ratchet queue stored
    by_cases hstored : stored = true
    · rw [if_pos hstored]
      obtain ⟨h₁, h₂, h₃⟩ := handshakeLoadState_records
        ({ base with ratchetState := ratchet, ourQueue := queue } : ContactDevice K)
      exact ⟨h₂.trans hcontacts, h₃.trans hdirty, h₁.trans hnvs⟩
    · rw [if_neg hstored]
      exact ⟨hcontacts, hdirty, hnvs⟩
  obtain ⟨hcontacts, hdirty, hnvs⟩ := hloaded (dev.resetRam P) rfl rfl rfl
    ((ratchetLoadState dev.nvs 0).getD (dev.resetRam P).ratchetState)
    (ContactDevice.queueLoadCredentials dev.nvs) (ContactDevice.sessionStored dev.nvs)
  rw [ContactDevice.restoreSession]
  by_cases hrestored : ContactDevice.sessionRestored dev.nvs = true
  · rw [if_pos hrestored]
    refine ⟨fun j => congrFun hcontacts j, hdirty, fun key _ => congrFun hnvs key, fun _ => hnvs⟩
  · rw [if_neg hrestored]
    cases env.queueCreated with
    | none =>
      exact ⟨fun j => congrFun hcontacts j, hdirty, fun key _ => congrFun hnvs key, fun _ => hnvs⟩
    | some queue =>
      refine ⟨fun j => congrFun hcontacts j, hdirty, fun key hkey => ?_,
        fun h => absurd h hrestored⟩
      exact (Store.put_of_ne _ _ hkey).trans (congrFun hnvs key)

/-- Without a session the queue that was made is stored. -/
theorem restoreSession_queue (P : Primitives K) (dev : ContactDevice K) {env : BootEnv}
    {queue : OurQueue} (hrestored : ContactDevice.sessionRestored dev.nvs = false)
    (hqueue : env.queueCreated = some queue) :
    (dev.restoreSession P env).nvs "queue_our" = some (.ourQueue queue) := by
  rw [ContactDevice.restoreSession]
  simp only [hrestored, hqueue, Bool.false_eq_true, if_false]
  exact Store.put_self ..

/-- Loading the records leaves the active ones saved. -/
theorem activeSaved_load (dev : ContactDevice K) {lands : ℕ → Bool}
    (hlands : ∀ j, lands j = true) : ActiveSaved (dev.loadContactsFromNvs lands) := by
  have hloaded : ActiveSaved ({ dev with
      contacts := ContactDevice.loadContact dev.nvs
      numContacts := ContactDevice.countActive (ContactDevice.loadContact dev.nvs) maxContacts } :
        ContactDevice K) := by
    intro j hj hactive
    change (ContactDevice.loadContact dev.nvs j).isActive = true at hactive
    change dev.nvs (cntKey j) = some (.contact (ContactDevice.loadContact dev.nvs j))
    rw [ContactDevice.loadContact] at hactive ⊢
    cases hblob : dev.nvs (cntKey j) with
    | none => simp [hblob] at hactive
    | some blob =>
      cases blob with
      | contact c => simp [hj]
      | _ => simp [hblob] at hactive
  rw [ContactDevice.loadContactsFromNvs]
  dsimp only
  by_cases hany : ((List.range maxContacts).any fun i =>
      (ContactDevice.loadContact dev.nvs i).isActive) = true
  · rw [if_pos hany]
    exact hloaded
  · rw [if_neg hany]
    cases dev.nvs "contacts" with
    | none => exact hloaded
    | some blob =>
      cases blob with
      | legacyContacts count old =>
        dsimp only
        by_cases hcount : 0 < count ∧ count ≤ 10
        · rw [if_pos hcount]
          exact activeSaved_save _ hlands
        · rw [if_neg hcount]
          exact hloaded
      | _ => exact hloaded

/-- A start-up leaves the active records saved. -/
theorem activeSaved_appMain (P : Primitives K) (dev : ContactDevice K) {env : BootEnv}
    (hlands : ∀ j, env.lands j = true) : ActiveSaved (dev.appMain P env) := by
  rw [ContactDevice.appMain]
  by_cases hconnects : env.connects = true
  · simp only [hconnects, Bool.not_true, Bool.false_eq_true, if_false]
    by_cases hrestored : ContactDevice.sessionRestored dev.nvs = true
    · rw [if_pos hrestored]
      exact activeSaved_load _ hlands
    · rw [if_neg hrestored]
      exact activeSaved_load _ hlands
  · simp only [hconnects, Bool.not_false, if_true]
    intro j _ hactive
    rw [(restoreSession_records P dev env).1 j] at hactive
    cases hactive

/-- A safe start-up restores the contacts. -/
theorem RebootSafe.restores {dev : ContactDevice K} (hinv : RecordsSaved dev) (P : Primitives K)
    {env : BootEnv} (hsafe : RebootSafe dev env) : RestoresContacts P dev env := by
  rcases hsafe with hnone | ⟨hrestored, hdirty, hconnects⟩
  · exact fun j hj c hc => absurd hc (hnone j hj c)
  have hsaved : ActiveSaved dev := by
    cases hclean : dev.contactsDirty with
    | true => exact hdirty hclean
    | false => exact hinv hclean
  intro j hj c hc
  have hrecord : dev.nvs (cntKey j) = some (.contact c) := by
    rcases hc with ⟨hactive, rfl | hstored⟩
    · exact hsaved j hj hactive
    · exact hstored
  obtain ⟨-, -, -, hnvs⟩ := restoreSession_records P dev env
  have hloaded : ContactDevice.loadContact (dev.restoreSession P env).nvs j = c := by
    rw [ContactDevice.loadContact, hnvs hrestored, hrecord]
    exact if_pos hj
  -- An active record keeps the loader from looking for an old table.
  have hany : ((List.range maxContacts).any fun i =>
      (ContactDevice.loadContact (dev.restoreSession P env).nvs i).isActive) = true := by
    rw [List.any_eq_true]
    exact ⟨j, List.mem_range.mpr hj, by rw [hloaded]; exact hc.1⟩
  rw [ContactDevice.appMain]
  simp only [hconnects, hrestored, Bool.not_true, Bool.false_eq_true, if_true, if_false]
  rw [ContactDevice.loadContactsFromNvs]
  simp only [hany, if_true]
  exact ⟨hloaded, fun key _ => congrFun (hnvs hrestored) key⟩

/-- A wipe removes every record and the old table, and nothing else. -/
theorem clearAllContacts_nvs (dev : ContactDevice K) :
    (∀ j < maxContacts, dev.clearAllContacts.nvs (cntKey j) = none) ∧
      dev.clearAllContacts.nvs "contacts" = none ∧
      ∀ key, key ≠ "contacts" → (∀ j < maxContacts, cntKey j ≠ key) →
        dev.clearAllContacts.nvs key = dev.nvs key := by
  unfold ContactDevice.clearAllContacts
  dsimp only
  refine ⟨fun j hj => ?_, Store.erase_self .., fun key hkey hcnt => ?_⟩
  · have hkey : cntKey j ≠ "contacts" := by
      intro h
      have hchars := congrArg (fun s : String => s.toList.take 4) h
      simp [cntKey] at hchars
    rw [Store.erase_of_ne _ hkey, Store.setFamily_key _ _ _ cntKey_injOn hj]
    rfl
  · rw [Store.erase_of_ne _ hkey, Store.setFamily_of_ne _ _ _ hcnt]

/-- After a wipe there is nothing to load. -/
theorem clearAllContacts_load (dev : ContactDevice K) (lands : ℕ → Bool) :
    dev.clearAllContacts.loadContactsFromNvs lands = dev.clearAllContacts := by
  obtain ⟨herased, hlegacy, -⟩ := clearAllContacts_nvs dev
  have hzero : ContactDevice.loadContact dev.clearAllContacts.nvs = fun _ => .zero := by
    funext j
    rw [ContactDevice.loadContact]
    by_cases hj : j < maxContacts
    · rw [herased j hj]
    · cases dev.clearAllContacts.nvs (cntKey j) with
      | none => rfl
      | some blob => cases blob <;> simp [hj]
  rw [ContactDevice.loadContactsFromNvs]
  simp only [hlegacy, hzero, ite_self]
  have hcount : ContactDevice.countActive (fun _ => Contact.zero) maxContacts = 0 := by
    simp [ContactDevice.countActive]
  rw [hcount]
  rfl

/-- A start-up that does not restore the session erases and forgets every contact. -/
theorem appMain_wipes (P : Primitives K) (dev : ContactDevice K) {env : BootEnv}
    (hrestored : ContactDevice.sessionRestored dev.nvs = false) (hconnects : env.connects = true) :
    dev.appMain P env = (dev.restoreSession P env).clearAllContacts := by
  rw [ContactDevice.appMain]
  simp only [hconnects, hrestored, Bool.not_true, Bool.false_eq_true, if_false]
  exact clearAllContacts_load _ _

/-- A step that meets the condition keeps the records saved. -/
theorem RecordsSaved.step {dev : ContactDevice K} (h : RecordsSaved dev) (P : Primitives K)
    (action : ContactAction K) (hsafe : action.Safe dev) : RecordsSaved (dev.step P action) := by
  cases action with
  | addContact keys ids queue => exact h.addContact keys ids queue
  | rename slot name lands =>
    obtain rfl : lands = true := hsafe
    exact h.rename slot name
  | saveSession slot st lands => exact h.saveSession P slot st lands
  | saveHandshake entry =>
    refine h.of_same rfl (fun _ _ => rfl) fun j => ?_
    have hkey : cntKey j ≠ handKey dev.activeHandshakeIdx := ne_of_keyFamily (by simp)
    exact Store.put_of_ne dev.nvs (.handshake (Function.update dev.handshakes
      dev.activeHandshakeIdx entry dev.activeHandshakeIdx) 1) hkey
  | savePeer slot peer =>
    refine h.of_same rfl (fun _ _ => rfl) fun j => ?_
    have hkey : cntKey j ≠ peerKey slot := ne_of_keyFamily (by simp)
    exact Store.put_of_ne dev.nvs (.peer peer) hkey
  | select slot => exact h.select slot
  | deferredWork lands queueLands => exact fun _ => h.deferredWork hsafe queueLands
  | abort slot => exact h.abort slot
  | removeContact index confirmed lands => exact h.remove P index confirmed hsafe
  | reboot env => exact fun _ => activeSaved_appMain P dev hsafe.2

/-- The property of a run: each start-up in it restores the contacts. -/
def ContactAction.Restores (P : Primitives K) (dev : ContactDevice K) : ContactAction K → Prop
  | .reboot env => RestoresContacts P dev env
  | _ => True

/-- In every run from a blank device whose steps meet the condition, each start-up loads
every active contact and erases nothing that is stored for it. -/
theorem reboots_restore (P : Primitives K) (actions : List (ContactAction K))
    (hsafe : StepsMeet (ContactDevice.step P) (fun dev action => action.Safe dev)
      (ContactDevice.blank P) actions) :
    StepsMeet (ContactDevice.step P) (fun dev action => action.Restores P dev)
      (ContactDevice.blank P) actions := by
  have hstep : ∀ dev action, RecordsSaved dev → ContactAction.Safe dev action →
      RecordsSaved (ContactDevice.step P dev action) :=
    fun dev action hinv hsafe => hinv.step P action hsafe
  have hpost : ∀ dev action, RecordsSaved dev → ContactAction.Safe dev action →
      ContactAction.Restores P dev action := by
    intro dev action hinv hsafe
    cases action with
    | reboot env => exact hsafe.1.restores hinv P
    | _ => trivial
  have hstart : RecordsSaved (ContactDevice.blank P) := fun _ _ _ hactive => Bool.noConfusion hactive
  exact hsafe.invariant_step hstep hpost hstart

/-- Keys and a name of zeros. -/
def zeroContactKeys : ContactDevice.ContactKeys where
  name := zeroBytes 32
  rcvAuthSecret := zeroBytes 64
  rcvAuthPublic := zeroBytes 32
  rcvDhSecret := zeroBytes 32
  rcvDhPublic := zeroBytes 32

/-- An `IDS` answer without ids. -/
def zeroQueueIds : ContactDevice.QueueIds where
  recipientId := zeroBytes 24
  recipientIdLen := 0
  senderId := zeroBytes 24
  senderIdLen := 0
  srvDhPublic := zeroBytes 32
  haveSrvDh := 0

/-- A start-up that reaches the server and makes no queue of its own. -/
def plainStart : BootEnv := ⟨none, true, fun _ => true⟩

/-- A contact is added and saved, and the device restarts before any handshake. -/
def unansweredInvitation : List (ContactAction SymKey) :=
  [.addContact zeroContactKeys (some zeroQueueIds) .zero, .deferredWork (fun _ => true) true,
    .reboot plainStart]

/-- The restart erases the contact. -/
theorem reboot_erases_unanswered :
    ¬ StepsMeet (ContactDevice.step symbolic) (fun dev action => action.Restores symbolic dev)
      (ContactDevice.blank symbolic) unansweredInvitation := by
  intro h
  simp only [unansweredInvitation, stepsMeet_cons, stepsMeet_nil, and_true] at h
  obtain ⟨-, -, hrestores⟩ := h
  generalize hadded : ContactDevice.step symbolic (ContactDevice.blank symbolic)
    (.addContact zeroContactKeys (some zeroQueueIds) .zero) = added at hrestores
  have hcontact : added.contacts 0 = ContactDevice.createdContact zeroContactKeys zeroQueueIds := by
    rw [← hadded]
    rfl
  have hdirty : added.contactsDirty = true := by
    rw [← hadded]
    rfl
  have hnvs : added.nvs = fun _ => none := by
    rw [← hadded]
    rfl
  have hpending : added.pendingDeleteSlot = none := by
    rw [← hadded]
    rfl
  have hqueue : added.rqSavePending = none := by
    rw [← hadded]
    rfl
  have hwork : ContactDevice.step symbolic added (.deferredWork (fun _ => true) true) =
      { added with contactsDirty := false }.saveContactsToNvs fun _ => true :=
    processDeferredWork_of_idle hdirty hpending hqueue _ _
  rw [hwork] at hrestores
  have hrat : ∀ i < maxContacts, cntKey i ≠ ratKey 0 := fun i _ => ne_of_keyFamily (by simp)
  have hnot : ContactDevice.sessionRestored
      ({ added with contactsDirty := false }.saveContactsToNvs fun _ => true).nvs = false := by
    rw [saveContactsToNvs_nvs, ContactDevice.sessionRestored, ContactDevice.sessionStored,
      smpStorageExists, Store.setFamily_of_ne _ _ _ hrat, hnvs]
    rfl
  have hloaded := (hrestores 0 (by decide) (added.contacts 0)
    ⟨by rw [hcontact]; rfl, Or.inl rfl⟩).1
  have hconnects : plainStart.connects = true := rfl
  rw [appMain_wipes symbolic _ hnot hconnects, hcontact] at hloaded
  have hactive : Contact.zero.isActive =
      (ContactDevice.createdContact zeroContactKeys zeroQueueIds).isActive :=
    congrArg Contact.isActive hloaded
  exact absurd hactive (by decide)

/-- A queue of the device without ids. -/
def zeroOurQueue : OurQueue where
  rcvId := zeroBytes 24
  rcvIdLen := 0
  sndId := zeroBytes 24
  sndIdLen := 0
  srvDhPublic := zeroBytes 32
  rcvAuthPublic := zeroBytes 32
  rcvAuthPrivate := zeroBytes 64
  rcvDhPublic := zeroBytes 32
  rcvDhPrivate := zeroBytes 32
  e2ePublic := zeroBytes 32
  e2ePrivate := zeroBytes 32
  sharedSecret := zeroBytes 32
  serverHost := zeroBytes 64
  serverPort := 0
  serverKeyHash := zeroBytes 32
  valid := true

/-- A first start-up, which makes the device's queue. -/
def firstStart : BootEnv := ⟨some zeroOurQueue, true, fun _ => true⟩

/-- A first start-up makes the queue, a contact is added and saved, its handshake leaves a
ratchet in slot 0, and the device restarts. -/
def answeredInvitation : List (ContactAction SymKey) :=
  [.reboot firstStart, .addContact zeroContactKeys (some zeroQueueIds) .zero,
    .deferredWork (fun _ => true) true,
    .saveSession 0 { RatchetState.zero symbolic with initialized := true } fun _ => true,
    .reboot plainStart]

/-- A ratchet saved in slot 0 and a queue of the device make the session one to restore. -/
theorem sessionRestored_saveSession {dev : ContactDevice K} {queue : OurQueue}
    (hqueue : dev.nvs "queue_our" = some (.ourQueue queue)) (hvalid : queue.valid = true)
    (P : Primitives K) {st : RatchetState K} (hinit : st.initialized = true) :
    ContactDevice.sessionRestored (dev.step P (.saveSession 0 st fun _ => true)).nvs = true := by
  have hmax : ¬ maxContacts ≤ 0 := by decide
  have hour : (dev.step P (.saveSession 0 st fun _ => true)).nvs "queue_our" =
      some (.ourQueue queue) :=
    (putAll_session_of_family dev.nvs 0 st _ (by decide) (by decide)).trans hqueue
  have hrat : (dev.step P (.saveSession 0 st fun _ => true)).nvs (ratKey 0) =
      some (.ratchet st.toRatchetClassical) := by
    have hsave : ratchetSaveState 0 st = [(ratKey 0, .ratchet st.toRatchetClassical)] := by
      simp [ratchetSaveState, hmax, hinit]
    rw [ContactDevice.step, Store.landed_all, Store.putAll_append, hsave, Store.putAll_cons,
      Store.putAll_nil]
    refine (Store.putAll_of_forall_ne _ _ _ fun w hw => ?_).trans (Store.put_self ..)
    obtain ⟨field, -, hfield⟩ := mem_pqNvsSave hw
    rw [hfield]
    exact (ratKey_ne_pqKey 0 0 field).symm
  rw [ContactDevice.sessionRestored, ContactDevice.sessionStored, smpStorageExists,
    smpStorageExists, ratchetLoadState, ContactDevice.queueLoadCredentials, hour, hrat, if_neg hmax]
  simp [hinit, hvalid]

/-- Before the restart the session is stored and no save is outstanding. -/
theorem answeredInvitation_stored :
    let dev := runFrom (ContactDevice.step symbolic) (ContactDevice.blank symbolic)
      (answeredInvitation.take 4)
    ContactDevice.sessionRestored dev.nvs = true ∧ dev.contactsDirty = false := by
  have hnone : ContactDevice.sessionRestored (ContactDevice.blank symbolic).nvs = false := by
    rw [ContactDevice.sessionRestored, ContactDevice.sessionStored]
    rfl
  have hconnects : firstStart.connects = true := rfl
  have hfirst := appMain_wipes symbolic (ContactDevice.blank symbolic) hnone hconnects
  simp only [answeredInvitation, List.take_succ_cons, List.take_zero, runFrom_cons, runFrom_nil]
  have hstep : ContactDevice.step symbolic (ContactDevice.blank symbolic) (.reboot firstStart) =
      ((ContactDevice.blank symbolic).restoreSession symbolic firstStart).clearAllContacts := hfirst
  have hourQueue : ((ContactDevice.blank symbolic).restoreSession symbolic
      firstStart).clearAllContacts.nvs "queue_our" = some (.ourQueue zeroOurQueue) := by
    rw [(clearAllContacts_nvs _).2.2 _ (by decide) fun j _ =>
      ne_of_keyFamily (by rw [keyFamily_cntKey]; decide)]
    exact restoreSession_queue symbolic _ hnone rfl
  rw [hstep]
  generalize hadded : ContactDevice.step symbolic ((ContactDevice.blank symbolic).restoreSession
    symbolic firstStart).clearAllContacts
    (.addContact zeroContactKeys (some zeroQueueIds) .zero) = added
  have hdirty : added.contactsDirty = true := by
    rw [← hadded]
    rfl
  have hpending : added.pendingDeleteSlot = none := by
    rw [← hadded]
    rfl
  have hqueue : added.rqSavePending = none := by
    rw [← hadded]
    rfl
  have hnvs : added.nvs "queue_our" = some (.ourQueue zeroOurQueue) := by
    rw [← hadded, ContactDevice.step, cmdAddContact_nvs]
    exact hourQueue
  have hwork : ContactDevice.step symbolic added (.deferredWork (fun _ => true) true) =
      { added with contactsDirty := false }.saveContactsToNvs fun _ => true :=
    processDeferredWork_of_idle hdirty hpending hqueue _ _
  rw [hwork]
  have hsaved : ({ added with contactsDirty := false }.saveContactsToNvs fun _ => true).nvs
      "queue_our" = some (.ourQueue zeroOurQueue) := by
    rw [saveContactsToNvs_nvs]
    exact (Store.setFamily_of_ne _ _ _ fun j _ =>
      ne_of_keyFamily (by rw [keyFamily_cntKey]; decide)).trans hnvs
  exact ⟨sessionRestored_saveSession hsaved rfl symbolic rfl, rfl⟩

/-- After an answered invitation the restart restores the contact. -/
theorem reboots_restore_answered :
    StepsMeet (ContactDevice.step symbolic) (fun dev action => action.Restores symbolic dev)
      (ContactDevice.blank symbolic) answeredInvitation := by
  apply reboots_restore symbolic answeredInvitation
  obtain ⟨hrestored, hdirty⟩ := answeredInvitation_stored
  refine ⟨⟨Or.inl ?_, fun _ => rfl⟩, trivial, fun _ => rfl, trivial, ⟨Or.inr ⟨hrestored, ?_, rfl⟩,
    fun _ => rfl⟩, trivial⟩
  · rintro j - c ⟨hactive, rfl | hstored⟩
    · cases hactive
    · cases hstored
  · intro h
    exact absurd (hdirty.symm.trans h) Bool.noConfusion

end SimpleGo
