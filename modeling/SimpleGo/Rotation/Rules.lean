import Mathlib.Logic.Relation
import SimpleGo.Rotation.Messages

/-!
# What the steps of a rotation can do

One pass of the rotation loop is a sequence of small steps on one record each, and at its end
perhaps the live switch. The small steps are listed here once, with what each of them
requires, and a rule carries a fact about the device over every pass. The same is done for
the two message handlers.
-/

namespace SimpleGo

open Lib

/-- The E2E keys of the new main queue are a pair. -/
def RotationContactData.Keyed (X : Sodium) (rd : RotationContactData) : Prop :=
  rd.main.e2ePublic = X.boxPublic rd.main.e2ePrivate

/-- The server's answer leaves them alone. -/
theorem RotationContactData.Keyed.fill {X : Sodium} {rd : RotationContactData} (h : rd.Keyed X)
    (ids : NewQueueIds) (secret : Bytes 32) (state : RotationContactState) :
    RotationContactData.Keyed X { rd with
      main := { rd.main.fill ids with sharedSecret := secret }, state := state } := by
  simp only [RotationContactData.Keyed, NewQueue.fill]
  exact h

/-- How the loop changes a record. -/
inductive RecordStep (X : Sodium) (env : ContactEnv) :
    RotationContactData → RotationContactData → Prop
  | generate (rd : RotationContactData) (mainKeys rqKeys : NewQueueKeys) (h : rd.state = .idle) :
    RecordStep X env rd { rd with
      state := .idle
      main := rd.main.generate X mainKeys
      rq := rd.rq.generate X rqKeys
      rqCreated := false }
  | mainFailed (rd : RotationContactData) (ids : NewQueueIds) (h : rd.state = .idle)
      (hkeyed : rd.Keyed X) (hids : ids.sndIdLen ≤ 24) :
    RecordStep X env rd { rd with main := rd.main.fill ids, state := .error }
  | mainMade (rd : RotationContactData) (ids : NewQueueIds) (secret : Bytes 32)
      (h : rd.state = .idle) (hkeyed : rd.Keyed X) (hids : ids.sndIdLen ≤ 24)
      (hrq : rd.rqCreated = false) :
    RecordStep X env rd { rd with main := { rd.main.fill ids with sharedSecret := secret } }
  | rqFailed (rd : RotationContactData) (ids : NewQueueIds) (h : rd.state = .idle)
      (hkeyed : rd.Keyed X) :
    RecordStep X env rd { rd with rq := rd.rq.fill ids, state := .error }
  | rqMade (rd : RotationContactData) (ids : NewQueueIds) (secret : Bytes 32)
      (state : RotationContactState) (h : rd.state = .idle) (hkeyed : rd.Keyed X)
      (hstate : state = .idle ∨ state = .queueCreated) :
    RecordStep X env rd { rd with
      rq := { rd.rq.fill ids with sharedSecret := secret }, rqCreated := true, state := state }
  | keySent (rd : RotationContactData) (h : rd.state = .qkeyReceived)
      (hkey : rd.mainPeer.hasPeerSenderKey = true) (hconnects : env.connects = true)
      (haccepted : env.keyAccepted = true) :
    RecordStep X env rd { rd with state := .keySent }

/-- A record changes while its contact is in ROT_IDLE, or when it has answered with a QKEY. -/
theorem RecordStep.before {X : Sodium} {env : ContactEnv} {rd rd' : RotationContactData}
    (h : RecordStep X env rd rd') : rd.state = .idle ∨ rd.state = .qkeyReceived := by
  cases h with
  | keySent h _ _ _ => exact .inr h
  | _ => exact .inl (by assumption)

/-- A record comes to ROT_KEY_SENT by its KEY being accepted. -/
theorem RecordStep.after {X : Sodium} {env : ContactEnv} {rd rd' : RotationContactData}
    (h : RecordStep X env rd rd') : rd'.state ≠ .qkeyReceived ∧ (rd'.state = .keySent →
      rd.state = .qkeyReceived ∧ rd.mainPeer.hasPeerSenderKey = true ∧ env.connects = true ∧
        env.keyAccepted = true) := by
  cases h with
  | generate _ _ h => exact ⟨by simp, fun h => by simp at h⟩
  | mainFailed _ _ _ _ => exact ⟨by simp, fun h => by simp at h⟩
  | mainMade _ _ h _ _ _ => exact ⟨by simp [h], fun hs => by simp [h] at hs⟩
  | rqFailed _ _ _ => exact ⟨by simp, fun h => by simp at h⟩
  | rqMade _ _ state _ _ hstate =>
    rcases hstate with rfl | rfl <;> exact ⟨by simp, fun h => by simp at h⟩
  | keySent h hkey hconnects haccepted => exact ⟨by simp, fun _ => ⟨h, hkey, hconnects, haccepted⟩⟩

/-- What every change of a record respects: outside ROT_IDLE the new main queue is settled, with
a pair of E2E keys, and its sender id always fits. -/
structure Evolves (X : Sodium) (rd rd' : RotationContactData) : Prop where
  keyed : rd'.state ≠ .idle → (rd.state ≠ .idle → rd.Keyed X) → rd'.Keyed X
  fits : rd.main.sndIdLen ≤ 24 → rd'.main.sndIdLen ≤ 24
  settled : rd.state ≠ .idle → rd'.state ≠ .idle ∧ rd'.main = rd.main

/-- A change that keeps the new queue of a contact outside ROT_IDLE. -/
theorem Evolves.of_main {X : Sodium} {rd rd' : RotationContactData} (hmain : rd'.main = rd.main)
    (hstate : rd.state ≠ .idle) (hstate' : rd'.state ≠ .idle) : Evolves X rd rd' where
  keyed _ h := by
    rw [RotationContactData.Keyed, hmain]
    exact h hstate
  fits h := by rw [hmain]; exact h
  settled _ := ⟨hstate', hmain⟩

/-- No change. -/
theorem Evolves.refl (X : Sodium) (rd : RotationContactData) : Evolves X rd rd :=
  ⟨fun hstate h => h hstate, id, fun h => ⟨h, rfl⟩⟩

/-- A change of a contact in ROT_IDLE. -/
theorem Evolves.of_idle {X : Sodium} {rd rd' : RotationContactData} (hidle : rd.state = .idle)
    (hkeyed : rd'.state ≠ .idle → rd'.Keyed X)
    (hfits : rd.main.sndIdLen ≤ 24 → rd'.main.sndIdLen ≤ 24) : Evolves X rd rd' :=
  ⟨fun hstate _ => hkeyed hstate, hfits, fun h => absurd hidle h⟩

/-- The loop changes records in this way. -/
theorem RecordStep.evolves {X : Sodium} {env : ContactEnv} {rd rd' : RotationContactData}
    (h : RecordStep X env rd rd') : Evolves X rd rd' := by
  cases h with
  | generate _ _ h => exact .of_idle h (fun hno => absurd rfl hno) id
  | mainFailed ids h hkeyed hids =>
    refine .of_idle h (fun _ => ?_) fun _ => hids
    simp only [RotationContactData.Keyed, NewQueue.fill]
    exact hkeyed
  | mainMade ids secret h hkeyed hids _ => exact .of_idle h (fun hno => absurd h hno) fun _ => hids
  | rqFailed ids h hkeyed => exact .of_idle h (fun _ => hkeyed) id
  | rqMade ids secret state h hkeyed hstate => exact .of_idle h (fun _ => hkeyed) id
  | keySent h _ _ _ => exact .of_main rfl (by simp [h]) (by simp)

/-- How the loop changes the device when it is at a contact. -/
inductive ContactStep (X : Sodium) (env : ContactEnv) (idx : ℕ) :
    RotationDevice → RotationDevice → Prop
  | record (dev : RotationDevice) (rd : RotationContactData)
      (h : RecordStep X env (dev.record idx) rd) :
    ContactStep X env idx dev (dev.updateRecord idx rd)
  | qaddSkipped (dev : RotationDevice) (h : (dev.record idx).state = .queueCreated) :
    ContactStep X env idx dev (dev.rotationMarkQaddSent idx)
  | qaddUnconfirmed (dev : RotationDevice) (payload : List UInt8)
      (h : (dev.record idx).state = .queueCreated)
      (hbuilt : dev.rotationBuildQaddPayload idx 512 = some payload) :
    ContactStep X env idx dev (dev.note (.qaddSent idx payload))
  | qaddSent (dev : RotationDevice) (payload : List UInt8)
      (h : (dev.record idx).state = .queueCreated)
      (hbuilt : dev.rotationBuildQaddPayload idx 512 = some payload) :
    ContactStep X env idx dev ((dev.note (.qaddSent idx payload)).rotationMarkQaddSent idx)
  | quseSkipped (dev : RotationDevice) (h : (dev.record idx).state = .keySent)
      (hskip : env.peerLoads = false) :
    ContactStep X env idx dev (dev.rotationMarkQuseSent idx)
  | quseUnconfirmed (dev : RotationDevice) (payload : List UInt8)
      (h : (dev.record idx).state = .keySent) (hloads : env.peerLoads = true)
      (hsend : env.send = .unconfirmed)
      (hbuilt : dev.rotationBuildQusePayload idx 128 = some payload) :
    ContactStep X env idx dev (dev.note (.quseSent idx (dev.record idx) payload))
  | quseSent (dev : RotationDevice) (payload : List UInt8)
      (h : (dev.record idx).state = .keySent) (hloads : env.peerLoads = true)
      (hsend : env.send = .sent)
      (hbuilt : dev.rotationBuildQusePayload idx 128 = some payload) :
    ContactStep X env idx dev
      ((dev.note (.quseSent idx (dev.record idx) payload)).rotationMarkQuseSent idx)

namespace RotationDevice

variable {X : Sodium} {dev : RotationDevice}

/-! ### Small facts about the operations -/

/-- The array of records is there while its contents are read. -/
theorem record_of_some {rs : ℕ → RotationContactData} (h : dev.records = some rs) (idx : ℕ) :
    dev.record idx = rs idx := by
  rw [record, h]

@[simp] theorem setRecord_ctx (idx : ℕ) (rd : RotationContactData) :
    (dev.setRecord idx rd).ctx = dev.ctx := rfl

/-- Saving a record changes NVS alone. -/
theorem saveContactData_eq (idx : ℕ) :
    dev.saveContactData idx = { dev with flash := (dev.saveContactData idx).flash } := by
  rw [saveContactData]
  split
  · rfl
  · split <;> rfl

/-- An update changes the records and NVS. -/
theorem updateRecord_eq (idx : ℕ) (rd : RotationContactData) :
    dev.updateRecord idx rd =
      { dev with
        records := dev.records.map fun rs => Function.update rs idx rd
        flash := (dev.updateRecord idx rd).flash } := by
  rw [updateRecord, saveContactData_eq]
  rfl

@[simp] theorem updateRecord_contacts (idx : ℕ) (rd : RotationContactData) :
    (dev.updateRecord idx rd).contacts = dev.contacts := by rw [updateRecord_eq]

@[simp] theorem updateRecord_replyQueues (idx : ℕ) (rd : RotationContactData) :
    (dev.updateRecord idx rd).replyQueues = dev.replyQueues := by rw [updateRecord_eq]

@[simp] theorem updateRecord_ourQueue (idx : ℕ) (rd : RotationContactData) :
    (dev.updateRecord idx rd).ourQueue = dev.ourQueue := by rw [updateRecord_eq]

@[simp] theorem updateRecord_ctx (idx : ℕ) (rd : RotationContactData) :
    (dev.updateRecord idx rd).ctx = dev.ctx := by rw [updateRecord_eq]

@[simp] theorem updateRecord_history (idx : ℕ) (rd : RotationContactData) :
    (dev.updateRecord idx rd).history = dev.history := by rw [updateRecord_eq]

@[simp] theorem updateRecord_completeLogged (idx : ℕ) (rd : RotationContactData) :
    (dev.updateRecord idx rd).completeLogged = dev.completeLogged := by rw [updateRecord_eq]

@[simp] theorem updateRecord_onTarget (idx : ℕ) (rd : RotationContactData) :
    (dev.updateRecord idx rd).onTarget = dev.onTarget := by
  rw [onTarget, onTarget, updateRecord_ourQueue, updateRecord_ctx]

@[simp] theorem updateRecord_activeSlots (idx : ℕ) (rd : RotationContactData) :
    (dev.updateRecord idx rd).activeSlots = dev.activeSlots := by
  rw [activeSlots, activeSlots, updateRecord_contacts]

/-- The record of the contact is replaced. -/
theorem updateRecord_records (idx : ℕ) (rd : RotationContactData) :
    (dev.updateRecord idx rd).records = dev.records.map fun rs => Function.update rs idx rd := by
  rw [updateRecord_eq]

/-- The array stays allocated. -/
@[simp] theorem updateRecord_records_isSome (idx : ℕ) (rd : RotationContactData) :
    (dev.updateRecord idx rd).records.isSome = dev.records.isSome := by
  rw [updateRecord_records, Option.isSome_map]

/-- The record just written. -/
theorem updateRecord_record_self (h : dev.records.isSome = true) (idx : ℕ)
    (rd : RotationContactData) : (dev.updateRecord idx rd).record idx = rd := by
  obtain ⟨rs, hrs⟩ := Option.isSome_iff_exists.1 h
  rw [record, updateRecord_records, hrs]
  exact Function.update_self ..

/-- The other records. -/
theorem updateRecord_record_of_ne {idx j : ℕ} (h : j ≠ idx) (rd : RotationContactData) :
    (dev.updateRecord idx rd).record j = dev.record j := by
  rw [record, record, updateRecord_records]
  cases dev.records with
  | none => rfl
  | some rs => exact Function.update_of_ne h ..

/-- A mark on a slot is an update of its state. -/
theorem markState_eq {idx : ℕ} (hidx : idx < maxContacts) (state : RotationContactState) :
    dev.markState idx state = dev.updateRecord idx { dev.record idx with state := state } := by
  rw [markState, if_neg (by omega)]

/-- The state of a slot is that of its record. -/
theorem getContactState_eq {idx : ℕ} (hidx : idx < maxContacts) :
    dev.rotationGetContactState idx = (dev.record idx).state := by
  rw [rotationGetContactState, record]
  cases dev.records with
  | none => rfl
  | some rs => exact if_pos hidx

/-- Membership in the slots in use. -/
@[simp] theorem mem_activeSlots {i : ℕ} :
    i ∈ dev.activeSlots ↔ i < maxContacts ∧ (dev.contacts i).isActive = true := by
  simp [activeSlots]

/-! ### The loop -/

/-- The loop is at a contact of an active rotation. -/
structure AtContact (dev : RotationDevice) (idx : ℕ) : Prop where
  active : dev.ctx.active = true
  idx_lt : idx < maxContacts
  inUse : (dev.contacts idx).isActive = true
  allocated : dev.records.isSome = true

/-- A small step at a contact leaves the credentials and the context alone. -/
theorem ContactStep.same {env : ContactEnv} {idx : ℕ} {dev' : RotationDevice}
    (hidx : idx < maxContacts) (h : ContactStep X env idx dev dev') :
    dev'.contacts = dev.contacts ∧ dev'.replyQueues = dev.replyQueues ∧
      dev'.ourQueue = dev.ourQueue ∧ dev'.ctx = dev.ctx := by
  have hupdate : ∀ (d : RotationDevice) rd, (d.updateRecord idx rd).contacts = d.contacts ∧
      (d.updateRecord idx rd).replyQueues = d.replyQueues ∧
      (d.updateRecord idx rd).ourQueue = d.ourQueue ∧ (d.updateRecord idx rd).ctx = d.ctx :=
    fun d rd => ⟨updateRecord_contacts .., updateRecord_replyQueues .., updateRecord_ourQueue ..,
      updateRecord_ctx ..⟩
  cases h with
  | record rd _ => exact hupdate dev rd
  | qaddSkipped _ =>
    rw [rotationMarkQaddSent, markState_eq hidx]
    exact hupdate dev _
  | qaddUnconfirmed payload _ _ => exact ⟨rfl, rfl, rfl, rfl⟩
  | qaddSent payload _ _ =>
    rw [rotationMarkQaddSent, markState_eq hidx]
    exact hupdate (dev.note _) _
  | quseSkipped _ _ =>
    rw [rotationMarkQuseSent, markState_eq hidx]
    exact hupdate dev _
  | quseUnconfirmed payload _ _ _ _ => exact ⟨rfl, rfl, rfl, rfl⟩
  | quseSent payload _ _ _ _ =>
    rw [rotationMarkQuseSent, markState_eq hidx]
    exact hupdate (dev.note _) _

/-- A new record leaves the loop at its contact. -/
theorem AtContact.updateRecord {idx : ℕ} (hat : dev.AtContact idx) (j : ℕ)
    (rd : RotationContactData) : (dev.updateRecord j rd).AtContact idx where
  active := by rw [updateRecord_ctx]; exact hat.active
  idx_lt := hat.idx_lt
  inUse := by rw [updateRecord_contacts]; exact hat.inUse
  allocated := by rw [updateRecord_records_isSome]; exact hat.allocated

/-- A noted event leaves the loop at its contact. -/
theorem AtContact.note {idx : ℕ} (hat : dev.AtContact idx) (event : RotationEvent) :
    (dev.note event).AtContact idx := ⟨hat.active, hat.idx_lt, hat.inUse, hat.allocated⟩

/-- So does every small step. -/
theorem AtContact.step {env : ContactEnv} {idx j : ℕ} {dev' : RotationDevice}
    (hat : dev.AtContact j) (hidx : idx < maxContacts) (h : ContactStep X env idx dev dev') :
    dev'.AtContact j := by
  cases h with
  | record rd _ => exact hat.updateRecord idx rd
  | qaddSkipped _ =>
    rw [rotationMarkQaddSent, markState_eq hidx]
    exact hat.updateRecord ..
  | qaddUnconfirmed payload _ _ => exact hat.note _
  | qaddSent payload _ _ =>
    rw [rotationMarkQaddSent, markState_eq hidx]
    exact (hat.note _).updateRecord ..
  | quseSkipped _ _ =>
    rw [rotationMarkQuseSent, markState_eq hidx]
    exact hat.updateRecord ..
  | quseUnconfirmed payload _ _ _ _ => exact hat.note _
  | quseSent payload _ _ _ _ =>
    rw [rotationMarkQuseSent, markState_eq hidx]
    exact (hat.note _).updateRecord ..

section Loop

variable {env : ContactEnv} {idx : ℕ}

/-- A fact that every small step at a contact keeps. -/
def KeptAt (X : Sodium) (env : ContactEnv) (idx : ℕ) (P : RotationDevice → Prop) : Prop :=
  ∀ d d' : RotationDevice, d.AtContact idx → P d → ContactStep X env idx d d' → P d'

variable {P : RotationDevice → Prop}

/-- The keys of both queues. -/
theorem stepCreate_generate (hat : dev.AtContact idx)
    (hstate : (dev.record idx).state = .idle) (mainKeys rqKeys : NewQueueKeys) :
    ContactStep X env idx dev (dev.rotationCreateQueueForContact X idx mainKeys rqKeys) := by
  rw [rotationCreateQueueForContact, if_pos ⟨hat.active, hat.idx_lt, hat.inUse⟩]
  exact .record dev _ (.generate _ mainKeys rqKeys hstate)

/-- The answer for the main queue: the contact is still in ROT_IDLE, or in error. -/
theorem completeQueueCreation_step (X : Sodium) (env : ContactEnv) (hat : dev.AtContact idx)
    (ids : NewQueueIds) (hids : ids.sndIdLen ≤ 24) (hstate : (dev.record idx).state = .idle)
    (hkeyed : (dev.record idx).Keyed X) (hrq : (dev.record idx).rqCreated = false) :
    ContactStep X env idx dev (dev.rotationCompleteQueueCreation X idx ids).1 ∧
      ((dev.rotationCompleteQueueCreation X idx ids).2 = true →
        ((dev.rotationCompleteQueueCreation X idx ids).1.record idx).state = .idle ∧
        ((dev.rotationCompleteQueueCreation X idx ids).1.record idx).Keyed X) := by
  rw [rotationCompleteQueueCreation, if_neg (by have := hat.idx_lt; omega)]
  dsimp only
  split
  · exact ⟨.record dev _ (.mainFailed _ ids hstate hkeyed hids), fun h => by cases h⟩
  · rename_i secret _
    rw [if_neg (by simp [hrq])]
    exact ⟨.record dev _ (.mainMade _ ids secret hstate hkeyed hids hrq), fun _ => by
      rw [updateRecord_record_self hat.allocated]
      exact ⟨hstate, hkeyed.fill ids secret _⟩⟩

/-- The answer for the reply queue. -/
theorem completeRqCreation_step (X : Sodium) (env : ContactEnv) (hat : dev.AtContact idx)
    (ids : NewQueueIds) (hstate : (dev.record idx).state = .idle)
    (hkeyed : (dev.record idx).Keyed X) :
    ContactStep X env idx dev (dev.rotationCompleteRqCreation X idx ids).1 := by
  rw [rotationCompleteRqCreation, if_neg (by have := hat.idx_lt; omega)]
  dsimp only
  split
  · exact .record dev _ (.rqFailed _ ids hstate hkeyed)
  · rename_i secret _
    refine .record dev _ (.rqMade _ ids secret _ hstate hkeyed ?_)
    split
    · exact .inr rfl
    · exact .inl hstate

/-- Ids that are accepted fit. -/
theorem sndIdLen_le_of_answered {ids : Option NewQueueIds} {got : NewQueueIds}
    (h : answeredIds ids = some got) : got.sndIdLen ≤ 24 := by
  have hfit := (Option.filter_eq_some_iff.1 h).2
  simp only [Bool.and_eq_true, decide_eq_true_eq] at hfit
  exact hfit.2

/-- ROT_IDLE keeps what its small steps keep. -/
theorem stepCreate_rule (hkept : KeptAt X env idx P) (hat : dev.AtContact idx)
    (hstate : (dev.record idx).state = .idle) (h : P dev) :
    P (dev.stepCreate X idx env) ∧ (dev.stepCreate X idx env).AtContact idx := by
  have hgen : ContactStep X env idx dev
      (dev.rotationCreateQueueForContact X idx env.mainKeys env.rqKeys) :=
    stepCreate_generate hat hstate _ _
  have hat₁ := hat.step hat.idx_lt hgen
  have h₁ := hkept _ _ hat h hgen
  have hrec : ((dev.rotationCreateQueueForContact X idx env.mainKeys env.rqKeys).record idx) =
      { dev.record idx with
        state := .idle
        main := (dev.record idx).main.generate X env.mainKeys
        rq := (dev.record idx).rq.generate X env.rqKeys
        rqCreated := false } := by
    rw [rotationCreateQueueForContact, if_pos ⟨hat.active, hat.idx_lt, hat.inUse⟩]
    exact updateRecord_record_self hat.allocated _ _
  rw [stepCreate]
  dsimp only
  split
  · exact ⟨h₁, hat₁⟩
  · split
    · exact ⟨h₁, hat₁⟩
    · rename_i ids hmain
      obtain ⟨hmade, hidle⟩ := completeQueueCreation_step X env hat₁ ids
        (sndIdLen_le_of_answered hmain) (by rw [hrec]) (by rw [hrec]; rfl) (by rw [hrec])
      have hat₂ := hat₁.step hat.idx_lt hmade
      have h₂ := hkept _ _ hat₁ h₁ hmade
      split
      · exact ⟨h₂, hat₂⟩
      · rename_i hok
        split
        · exact ⟨h₂, hat₂⟩
        · rename_i rqIds _
          obtain ⟨hstate₂, hkeyed₂⟩ := hidle (by simpa using hok)
          have hrq := completeRqCreation_step X env hat₂ rqIds hstate₂ hkeyed₂
          exact ⟨hkept _ _ hat₂ h₂ hrq, hat₂.step hat.idx_lt hrq⟩

/-- ROT_QUEUE_CREATED keeps what its small steps keep. -/
theorem stepQadd_rule (hkept : KeptAt X env idx P) (hat : dev.AtContact idx)
    (hstate : (dev.record idx).state = .queueCreated) (h : P dev) :
    P (dev.stepQadd idx env).1 ∧ (dev.stepQadd idx env).1.AtContact idx := by
  have hdone : ∀ d', ContactStep X env idx dev d' → P d' ∧ d'.AtContact idx := fun d' hs =>
    ⟨hkept _ _ hat h hs, hat.step hat.idx_lt hs⟩
  rw [stepQadd]
  split
  · exact hdone _ (.qaddSkipped dev hstate)
  · split
    · exact ⟨h, hat⟩
    · rename_i payload hbuilt
      dsimp only [sendMarked]
      split
      · exact ⟨h, hat⟩
      · exact hdone _ (.qaddUnconfirmed dev payload hstate hbuilt)
      · exact hdone _ (.qaddSent dev payload hstate hbuilt)

/-- ROT_KEY_SENT keeps what its small steps keep. -/
theorem stepQuse_rule (hkept : KeptAt X env idx P) (hat : dev.AtContact idx)
    (hstate : (dev.record idx).state = .keySent) (h : P dev) :
    P (dev.stepQuse idx env).1 ∧ (dev.stepQuse idx env).1.AtContact idx := by
  have hdone : ∀ d', ContactStep X env idx dev d' → P d' ∧ d'.AtContact idx := fun d' hs =>
    ⟨hkept _ _ hat h hs, hat.step hat.idx_lt hs⟩
  rw [stepQuse]
  split
  · rename_i hskip
    exact hdone _ (.quseSkipped dev hstate (by simpa using hskip))
  · rename_i hloads
    have hloads' : env.peerLoads = true := by simpa using hloads
    split
    · exact ⟨h, hat⟩
    · rename_i payload hbuilt
      dsimp only [sendMarked]
      split
      · exact ⟨h, hat⟩
      · rename_i hsend
        exact hdone _ (.quseUnconfirmed dev payload hstate hloads' hsend hbuilt)
      · rename_i hsend
        exact hdone _ (.quseSent dev payload hstate hloads' hsend hbuilt)

/-- The work on one contact keeps what its small steps keep. -/
theorem stepContact_rule (hkept : KeptAt X env idx P) (hat : dev.AtContact idx) (h : P dev) :
    P (dev.stepContact X idx env).1 ∧ (dev.stepContact X idx env).1.AtContact idx := by
  rw [stepContact, getContactState_eq hat.idx_lt]
  split
  · rename_i hstate
    exact stepCreate_rule hkept hat hstate h
  · rename_i hstate
    exact stepQadd_rule hkept hat hstate h
  · rename_i hstate
    rw [stepKey]
    split
    · exact ⟨h, hat⟩
    · rename_i hguard
      simp only [Bool.or_eq_true, Bool.not_eq_true', not_or, Bool.not_eq_false] at hguard
      have hkey : ContactStep X env idx dev (dev.rotationMarkKeySent idx) := by
        rw [rotationMarkKeySent, markState_eq hat.idx_lt]
        exact .record dev _ (.keySent _ hstate hguard.1.2 hguard.1.1 hguard.2)
      refine stepQuse_rule hkept (hat.step hat.idx_lt hkey) ?_ (hkept _ _ hat h hkey)
      rw [rotationMarkKeySent, markState_eq hat.idx_lt, updateRecord_record_self hat.allocated]
  · rename_i hstate
    exact stepQuse_rule hkept hat hstate h
  · exact ⟨h, hat⟩

end Loop

section Pass

variable {env : ℕ → ContactEnv} {P Q : RotationDevice → Prop}

/-- The loop keeps what every small step keeps. -/
theorem stepContacts_rule (hkept : ∀ idx, KeptAt X (env idx) idx P) (slots : List ℕ)
    (hat : ∀ idx ∈ slots, dev.AtContact idx) (hactive : dev.ctx.active = true)
    (hrecords : dev.records.isSome = true) (h : P dev) :
    P (stepContacts X env dev slots).1 ∧ (stepContacts X env dev slots).1.ctx.active = true ∧
      (stepContacts X env dev slots).1.records.isSome = true := by
  induction slots generalizing dev with
  | nil => exact ⟨h, hactive, hrecords⟩
  | cons idx rest ih =>
    have hidx := hat idx List.mem_cons_self
    -- the facts about the other contacts are kept along with `P`
    have hboth : KeptAt X (env idx) idx fun d => P d ∧ ∀ j ∈ rest, d.AtContact j :=
      fun d d' hd hP hs => ⟨hkept idx d d' hd hP.1 hs, fun j hj => (hP.2 j hj).step hd.idx_lt hs⟩
    obtain ⟨⟨hP, hrest⟩, hstepped⟩ := stepContact_rule hboth hidx
      ⟨h, fun j hj => hat j (List.mem_cons_of_mem _ hj)⟩
    rw [stepContacts]
    split
    · exact ⟨hP, hstepped.active, hstepped.allocated⟩
    · exact ih hrest hstepped.active hstepped.allocated hP

/-- A pass establishes what follows from the facts kept by its small steps, with or without a
live switch at its end. -/
theorem appRotationStep_rule (hrecords : dev.ctx.active = true → dev.records.isSome = true)
    (hkept : ∀ idx, KeptAt X (env idx) idx P)
    (hend : ∀ d : RotationDevice, P d → Q d)
    (hswitch : ∀ d : RotationDevice, d.ctx.active = true → d.records.isSome = true → P d →
      Q d.liveSwitch) (h : P dev) : Q (dev.appRotationStep X env) := by
  rw [appRotationStep]
  by_cases hactive : dev.ctx.active = true
  · rw [if_neg (by simp [hactive])]
    have hat : ∀ idx ∈ dev.activeSlots, dev.AtContact idx := fun idx hidx =>
      ⟨hactive, (mem_activeSlots.1 hidx).1, (mem_activeSlots.1 hidx).2, hrecords hactive⟩
    obtain ⟨hP, hactive', hrecords'⟩ := stepContacts_rule hkept dev.activeSlots hat hactive
      (hrecords hactive) h
    dsimp only
    split
    · exact hend _ hP
    · exact hswitch _ hactive' hrecords' hP
  · rw [if_pos (by simpa using hactive)]
    exact hend _ h

end Pass

/-! ### QKEY and QTEST -/

end RotationDevice

/-- Two records that agree up to what a QKEY has said. -/
structure SameKeys (rd rd' : RotationContactData) : Prop where
  state : rd.state = rd'.state
  main : rd.main = rd'.main
  rq : rd.rq = rd'.rq
  rqCreated : rd.rqCreated = rd'.rqCreated

/-- Agreement is reflexive. -/
@[refl] theorem SameKeys.refl (rd : RotationContactData) : SameKeys rd rd := ⟨rfl, rfl, rfl, rfl⟩

/-- Agreement is transitive. -/
theorem SameKeys.trans {rd rd' rd'' : RotationContactData} (h : SameKeys rd rd')
    (h' : SameKeys rd' rd'') : SameKeys rd rd'' :=
  ⟨h.state.trans h'.state, h.main.trans h'.main, h.rq.trans h'.rq,
    h.rqCreated.trans h'.rqCreated⟩

/-- Agreement is symmetric. -/
@[symm] theorem SameKeys.symm {rd rd' : RotationContactData} (h : SameKeys rd rd') :
    SameKeys rd' rd := ⟨h.state.symm, h.main.symm, h.rq.symm, h.rqCreated.symm⟩

/-- Records that agree on their queues evolve into one another. -/
theorem SameKeys.evolves {X : Sodium} {rd rd' : RotationContactData} (h : SameKeys rd' rd) :
    Evolves X rd rd' where
  keyed hstate hkeyed := by
    rw [RotationContactData.Keyed, h.main]
    exact hkeyed (h.state ▸ hstate)
  fits hfits := by rw [h.main]; exact hfits
  settled hstate := ⟨h.state ▸ hstate, h.main⟩

/-- A QKEY is read into the peer's part of a record. -/
theorem readQkey_sameKeys (rd : RotationContactData) (data : List UInt8) :
    SameKeys (rd.readQkey data).1 rd := by
  rw [RotationContactData.readQkey]
  dsimp only
  split
  · exact ⟨rfl, rfl, rfl, rfl⟩
  · split <;> exact ⟨rfl, rfl, rfl, rfl⟩

namespace RotationDevice

variable {X : Sodium} {dev : RotationDevice}

/-- What a QKEY does: nothing, or a contact that waits for it gets the peer's keys and goes on
when the message is whole. -/
theorem rotationHandleQkey_cases (idx : ℕ) (data : List UInt8) :
    dev.rotationHandleQkey idx data = dev ∨
      ∃ rd, SameKeys rd (dev.record idx) ∧ idx < maxContacts ∧
        ((dev.record idx).state = .qaddSent ∨ (dev.record idx).state = .waiting) ∧
        (dev.rotationHandleQkey idx data = dev.setRecord idx rd ∨
          dev.rotationHandleQkey idx data =
            dev.updateRecord idx { rd with state := .qkeyReceived }) := by
  rw [rotationHandleQkey]
  dsimp only
  split
  · exact .inl rfl
  · rename_i hguard
    simp only [not_or, not_and_or, not_not, Nat.not_le] at hguard
    refine .inr ⟨_, readQkey_sameKeys _ data, hguard.1, hguard.2.1, ?_⟩
    split
    · exact .inr rfl
    · exact .inl rfl

/-- The contact is marked DONE and counted. -/
def qtestCounted (dev : RotationDevice) (idx : ℕ) : RotationDevice :=
  { dev.markState idx .done with
    ctx := { dev.ctx with contactsDone := dev.ctx.contactsDone + 1 } }.saveContext

/-- The other contacts in use are DONE or IDLE. -/
def othersQtestDone (dev : RotationDevice) (idx : ℕ) : Prop :=
  ∀ i ∈ dev.activeSlots, i ≠ idx → (dev.record i).state = .done ∨ (dev.record i).state = .idle

/-- Whether the rotation can be decided to be over. -/
instance (dev : RotationDevice) (idx : ℕ) : Decidable (dev.othersQtestDone idx) :=
  inferInstanceAs (Decidable (∀ i ∈ dev.activeSlots, _))

/-- What a QTEST does: the contact is counted, and the last one ends the rotation. -/
theorem rotationMarkQtestReceived_cases (hsome : dev.records.isSome = true) {idx : ℕ}
    (hidx : idx < maxContacts) :
    (¬ dev.othersQtestDone idx ∧ dev.rotationMarkQtestReceived idx = dev.qtestCounted idx) ∨
      (dev.othersQtestDone idx ∧ dev.rotationMarkQtestReceived idx =
        { (dev.qtestCounted idx).rotationAbort with records := none, rqSubsNeeded := true }) := by
  have hmarked := dev.markState_eq hidx .done
  have hdone : (dev.qtestCounted idx).allQtestDone = true ↔ dev.othersQtestDone idx := by
    have hslots : (dev.qtestCounted idx).activeSlots = dev.activeSlots := by
      change (dev.markState idx .done).activeSlots = _
      rw [hmarked, updateRecord_activeSlots]
    have hstate : ∀ i ∈ dev.activeSlots, (dev.qtestCounted idx).rotationGetContactState i =
        if i = idx then .done else (dev.record i).state := by
      intro i hi
      change (dev.markState idx .done).rotationGetContactState i = _
      rw [getContactState_eq (mem_activeSlots.1 hi).1, hmarked]
      by_cases hsame : i = idx
      · subst hsame
        rw [if_pos rfl, updateRecord_record_self hsome]
      · rw [if_neg hsame, updateRecord_record_of_ne hsame]
    rw [allQtestDone, hslots, List.all_eq_true, othersQtestDone]
    refine forall₂_congr fun i hi => ?_
    rw [hstate i hi]
    by_cases hsame : i = idx <;> simp [hsame]
  have heq : dev.rotationMarkQtestReceived idx =
      if (dev.qtestCounted idx).allQtestDone then
        { (dev.qtestCounted idx).rotationAbort with records := none, rqSubsNeeded := true }
      else dev.qtestCounted idx := by
    rw [rotationMarkQtestReceived, if_neg]
    · rw [qtestCounted]
      dsimp only
      rw [hmarked, updateRecord_ctx]
      rfl
    · rw [not_or]
      exact ⟨fun hnone => Option.isSome_iff_ne_none.1 hsome hnone, by omega⟩
  rw [heq]
  by_cases hall : dev.othersQtestDone idx
  · exact .inr ⟨hall, if_pos (hdone.2 hall)⟩
  · exact .inl ⟨hall, if_neg fun h => hall (hdone.1 h)⟩

/-! ### Messages -/

/-- The contact whose QTEST a message is taken for: in QUSE_SENT every MSG on the contact's
own queue, and on a reply queue a message that decrypts to one. -/
def takenQtest (X : Sodium) (dev : RotationDevice) : RotationLabel → Option ℕ
  | .contactMsg idx env =>
    if idx < maxContacts ∧ (dev.contacts idx).isActive ∧ (dev.contacts idx).haveSrvDh ≠ 0 ∧
      16 < env.encLen ∧ dev.takesForQtest idx then some idx else none
  | .replyMsg idx legacy env =>
    if idx < maxContacts ∧ dev.ctx.active ∧ dev.rotationGetContactState idx = .quseSent ∧
      .qtest ∈ (dev.handleMsg X (.replyMsg idx legacy env)).2 then some idx else none
  | _ => none

/-- What a message can do to the rotation. -/
inductive MsgStep (taken : Prop) (idx : ℕ) : RotationDevice → RotationDevice → Prop
  | same (dev : RotationDevice) : MsgStep taken idx dev dev
  | qkey (dev : RotationDevice) (data : List UInt8) (hactive : dev.ctx.active = true)
      (hidx : idx < maxContacts) : MsgStep taken idx dev (dev.rotationHandleQkey idx data)
  | qtest (dev : RotationDevice) (h : taken) (hactive : dev.ctx.active = true)
      (hidx : idx < maxContacts) (hstate : dev.rotationGetContactState idx = .quseSent) :
    MsgStep taken idx dev (dev.rotationMarkQtestReceived idx)

end RotationDevice

/-- What a decrypted message holds, besides its body: nothing, a chat text, a QKEY or a
QTEST. -/
theorem extractChatText_cases (body : List UInt8) (jsonAlloc : Bool) :
    extractChatText body jsonAlloc = [] ∨
      (∃ text stored, extractChatText body jsonAlloc = [.notifyUi text, .historyAppend stored]) ∨
      (∃ data, extractChatText body jsonAlloc = [.qkey data]) ∨
      extractChatText body jsonAlloc = [.qtest] := by
  rw [extractChatText]
  split
  · split
    · split
      · exact .inl rfl
      · exact .inr (.inl ⟨_, _, rfl⟩)
    · exact .inl rfl
  · split
    · dsimp only
      split
      · split
        · exact .inl rfl
        · exact .inr (.inr (.inl ⟨_, rfl⟩))
      · exact .inr (.inr (.inr rfl))
      · exact .inl rfl
    · exact .inl rfl

/-- The same for a plaintext of the outer layers. -/
theorem smpAgentProcessMessage_cases (plain : Plaintext) (env : AgentEnv) :
    smpAgentProcessMessage plain env = [] ∨
      ∃ body, smpAgentProcessMessage plain env =
        .decrypted body :: extractChatText body env.jsonAlloc := by
  rw [smpAgentProcessMessage]
  split
  · exact .inl rfl
  · split
    · rw [handleEmpty]
      split
      · exact .inl rfl
      · split
        · exact .inl rfl
        · split
          · exact .inl rfl
          · exact .inr ⟨_, rfl⟩
    · exact .inl rfl

namespace RotationDevice

variable {X : Sodium} {dev : RotationDevice}

/-- The effects of a plaintext on the rotation: at most one QKEY or one QTEST. -/
theorem applyEffects_process (dev : RotationDevice) (idx : ℕ) (plain : Plaintext) (env : AgentEnv)
    (rest : List MsgEffect) :
    dev.applyEffects idx (smpAgentProcessMessage plain env ++ rest) = dev.applyEffects idx rest ∨
      (∃ data, dev.applyEffects idx (smpAgentProcessMessage plain env ++ rest) =
        (dev.applyEffect idx (.qkey data)).applyEffects idx rest) ∨
      (.qtest ∈ smpAgentProcessMessage plain env ∧
        dev.applyEffects idx (smpAgentProcessMessage plain env ++ rest) =
          (dev.applyEffect idx .qtest).applyEffects idx rest) := by
  rcases smpAgentProcessMessage_cases plain env with h | ⟨body, h⟩
  · rw [h]
    exact .inl rfl
  · rw [h]
    rcases extractChatText_cases body env.jsonAlloc with hc | ⟨text, stored, hc⟩ | ⟨data, hc⟩ | hc
    · rw [hc]
      exact .inl rfl
    · rw [hc]
      exact .inl rfl
    · rw [hc]
      exact .inr (.inl ⟨data, rfl⟩)
    · rw [hc]
      exact .inr (.inr ⟨by simp, rfl⟩)

/-- Learning a key changes the reply queue and NVS. -/
theorem learnPeerKey_eq (idx : ℕ) (newPeer : Option (Bytes 32)) :
    dev.learnPeerKey idx newPeer =
      { dev with
        replyQueues := (dev.learnPeerKey idx newPeer).replyQueues
        flash := (dev.learnPeerKey idx newPeer).flash } := by
  cases newPeer <;> rfl

/-- Being decrypted has no effect on the rotation. -/
theorem applyEffects_e2eDecrypt (idx : ℕ) (key : Bytes 32) (rest : List MsgEffect) :
    dev.applyEffects idx (.e2eDecrypt key :: rest) = dev.applyEffects idx rest := rfl

/-- A QKEY in a message. -/
theorem applyEffect_qkey_step {taken : Prop} {idx : ℕ} (hidx : idx < maxContacts)
    (data : List UInt8) : MsgStep taken idx dev (dev.applyEffect idx (.qkey data)) := by
  rw [applyEffect]
  split
  · rename_i hactive
    exact .qkey dev data hactive hidx
  · exact .same dev

/-- A QTEST in a message. -/
theorem applyEffect_qtest_step {taken : Prop} {idx : ℕ} (hidx : idx < maxContacts)
    (htaken : dev.ctx.active = true → dev.rotationGetContactState idx = .quseSent → taken) :
    MsgStep taken idx dev (dev.applyEffect idx .qtest) := by
  rw [applyEffect]
  split
  · rename_i h
    exact .qtest dev (htaken h.1 h.2) h.1 hidx h.2
  · exact .same dev

/-- The messages a contact's queue can bring. -/
theorem contactMsg_step (X : Sodium) (dev : RotationDevice) (idx : ℕ) (env : MsgEnv) :
    MsgStep (dev.takenQtest X (.contactMsg idx env) = some idx) idx dev
      (dev.step X (.contactMsg idx env)) := by
  rw [step, handleMsg]
  split
  · rename_i hslot
    rw [appHandleContactQueueMsg]
    split
    · exact .same dev
    · rename_i hguard
      rw [not_or, Nat.not_le] at hguard
      split
      · rename_i htakes
        have htaken : dev.takenQtest X (.contactMsg idx env) = some idx := by
          rw [takenQtest, if_pos ⟨hslot.1, hslot.2, hguard.1, hguard.2, htakes⟩]
        simp only [takesForQtest, Bool.and_eq_true, beq_iff_eq, decide_eq_true_eq] at htakes
        exact .qtest dev htaken htakes.1.1 hslot.1 htakes.2
      · rename_i htakes
        -- outside QUSE_SENT a decrypted QTEST is ignored
        have hno : dev.ctx.active = true → dev.rotationGetContactState idx = .quseSent → False :=
          fun hactive hstate => htakes (by simp [takesForQtest, hactive, hslot.1, hstate])
        have hfall : ∀ d : RotationDevice,
            d.applyEffects idx (dev.fallbackEffects idx env) = d := by
          intro d
          rw [fallbackEffects]
          split <;> rfl
        dsimp only
        rw [contactQueueEffects]
        split
        · rw [hfall]
          exact .same dev
        · split
          · rw [hfall]
            exact .same dev
          · rename_i shared _
            rw [applyEffects_e2eDecrypt]
            split
            · rw [hfall]
              exact .same dev
            · rename_i plain _
              rcases dev.applyEffects_process idx plain env.toAgentEnv
                [.ack (dev.contactQueueId idx)] with h | ⟨data, h⟩ | ⟨_, h⟩
              · rw [h]
                exact .same dev
              · rw [h]
                exact applyEffect_qkey_step hslot.1 data
              · rw [h]
                exact applyEffect_qtest_step hslot.1 fun ha hs => (hno ha hs).elim
  · exact .same dev

/-- The messages a reply queue can bring: the peer's key may be learned first. -/
theorem replyMsg_step (X : Sodium) (dev : RotationDevice) (idx : ℕ) (legacy : Bool) (env : MsgEnv) :
    ∃ learned : RotationDevice, (learned = dev ∨ (idx < maxContacts ∧
        (dev.replyQueues idx).valid = true ∧ learned = dev.learnPeerKey idx env.newPeer)) ∧
      MsgStep (dev.takenQtest X (.replyMsg idx legacy env) = some idx) idx learned
        (dev.step X (.replyMsg idx legacy env)) := by
  rw [step, handleMsg]
  split
  · rename_i hslot
    set learned := if !legacy && (dev.replyQueues idx).valid then dev.learnPeerKey idx env.newPeer
      else dev with hlearned
    refine ⟨learned, ?_, ?_⟩
    · rw [hlearned]
      split
      · rename_i hvalid
        simp only [Bool.and_eq_true] at hvalid
        exact .inr ⟨hslot.1, hvalid.2, rfl⟩
      · exact .inl rfl
    have hsame : learned.ctx = dev.ctx ∧ learned.records = dev.records := by
      rw [hlearned]
      split
      · rw [learnPeerKey_eq]
        exact ⟨rfl, rfl⟩
      · exact ⟨rfl, rfl⟩
    have hstate : learned.rotationGetContactState idx = dev.rotationGetContactState idx := by
      rw [rotationGetContactState, rotationGetContactState, hsame.2]
    rw [appHandleReplyQueueMsg]
    change MsgStep _ idx learned (learned.applyEffects idx (_ :: _))
    rw [applyEffects_e2eDecrypt]
    split
    · exact .same learned
    · rename_i plain hplain
      rcases learned.applyEffects_process idx plain env.toAgentEnv
        [.ack (dev.replyQueueId idx legacy)] with h | ⟨data, h⟩ | ⟨hmem, h⟩
      · rw [h]
        exact .same learned
      · rw [h]
        exact applyEffect_qkey_step hslot.1 data
      · rw [h]
        refine applyEffect_qtest_step hslot.1 fun hactive hs => ?_
        rw [hsame.1] at hactive
        rw [hstate] at hs
        rw [takenQtest, if_pos]
        refine ⟨hslot.1, hactive, hs, ?_⟩
        rw [handleMsg, if_pos hslot, appHandleReplyQueueMsg]
        dsimp only
        rw [hplain]
        simp [hmem]
  · exact ⟨dev, .inl rfl, .same dev⟩

end RotationDevice

end SimpleGo
