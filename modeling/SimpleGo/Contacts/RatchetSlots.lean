import SimpleGo.Contacts.SlotReuse
import SimpleGo.Ratchet.CrashConsistency

/-!
# The ratchet slots as a map

`ratchet_states` has one entry per contact, and the contact in use has its state in the working
copy `ratchet_state`, which is put back into the table when the next contact is selected. A slot
that is empty in RAM is loaded from NVS. `SessionMap` says what this is for: a map from contacts
to the states last left for them, with one contact in use. A restart takes the states from NVS,
a wipe leaves none, and what the crypto task writes late belongs to the contact it was asked for.

The device falls short of it in three ways. A wipe of the contact in use leaves 255 in
`active_ratchet_idx`, and the next selection puts the working copy into the table at that index,
past its 128 entries. A wipe leaves the NVS blobs of the session, so a later selection loads it
again. And a late request is carried out on the working copy, whichever contact is in use.
-/

namespace SimpleGo

open Lib

variable {K : Type}

/-! ### The map -/

/-- A map from contacts to sessions: the state last left for each, what a restart finds, and
the contact in use, 255 when there is none. -/
structure SessionMap (K : Type) where
  session : ℕ → RatchetState K
  nvs : Nvs K
  current : ℕ

/-- The NVS keys of a session. -/
def sessionKeys (idx : ℕ) : List String := ratKey idx :: pqSuffixes.map (pqKey idx)

/-- The operations on the state of the contact in use. -/
inductive SessionOp where
  | call (call : RatchetCall)
  | x3dhSender (peerKey1 peerKey2 : Bytes 56) (ourKey1 ourKey2 : X448KeyPair)
  | initSender (peerDhPublic : Bytes 56) (ourKey2 : X448KeyPair)
  | saveState (idx : ℕ)
  | loadState (idx : ℕ)
  | pqSave (idx : ℕ)
  | pqLoad (idx : ℕ)

namespace SessionOp

/-- The state an operation leaves. -/
def state (P : Primitives K) (current : ℕ) (nvs : Nvs K) (st : RatchetState K) :
    SessionOp → RatchetState K
  | call c => c.state P current st
  | x3dhSender peerKey1 peerKey2 ourKey1 ourKey2 =>
    (ratchetX3dhSender P peerKey1 peerKey2 ourKey1 ourKey2 st).getD st
  | initSender peerDhPublic ourKey2 => (ratchetInitSender P peerDhPublic ourKey2 st).2
  | saveState _ => st
  | loadState idx => (ratchetLoadState nvs idx).getD st
  | pqSave _ => st
  | pqLoad idx => { st with pq := pqNvsLoad nvs idx st.pq }

/-- The writes an operation attempts. -/
def writes (P : Primitives K) (current : ℕ) (st : RatchetState K) :
    SessionOp → List (NvsWrite K)
  | call c => c.writes P current st
  | initSender peerDhPublic ourKey2 =>
    let out := ratchetInitSender P peerDhPublic ourKey2 st
    if out.1 then ratchetSaveState current out.2 else []
  | saveState idx => ratchetSaveState idx st
  | pqSave idx => pqNvsSave idx st.pq
  | x3dhSender _ _ _ _ => []
  | loadState _ => []
  | pqLoad _ => []

/-- The slot an operation is told to save. -/
def target : SessionOp → Option ℕ
  | saveState idx => some idx
  | pqSave idx => some idx
  | _ => none

/-- The late requests drawn for an operation. -/
def late : SessionOp → List LateRequest
  | call (.decrypt _ draws _ _) =>
    draws.late .before ++ draws.kem.late ++ draws.late .after ++ draws.late .finish
  | call (.cryptoTask late) => late
  | _ => []

/-- The operation with the late requests of one contact only. -/
def ownLate (i : ℕ) : SessionOp → SessionOp
  | call (.decrypt enabled draws recvPq body) =>
    call (.decrypt enabled
      { draws with
        kem := { draws.kem with late := draws.kem.late.filter (·.slot == i) }
        late := fun point => (draws.late point).filter (·.slot == i) } recvPq body)
  | call (.cryptoTask late) => call (.cryptoTask (late.filter (·.slot == i)))
  | op => op

/-- The operation loads a stored session, whatever the state before it. -/
def Loads (nvs : Nvs K) : SessionOp → Prop
  | loadState idx => (ratchetLoadState nvs idx).isSome
  | _ => False

end SessionOp

/-- The operations of the store. Each write of an operation may fail. -/
inductive StoreOp where
  | setActive (idx : ℕ)
  | session (op : SessionOp) (lands : ℕ → Bool)
  | wipe (idx : ℕ)
  | reboot

/-- The contacts whose state an operation may change. A reboot leaves every contact what NVS
has. -/
def StoreOp.Concerns (current : ℕ) (i : ℕ) : StoreOp → Prop
  | setActive _ => False
  | session (.call (.cryptoTask late)) _ => ∃ r ∈ late, r.slot = i
  | session op _ => i = current ∨ ∃ r ∈ op.late, r.slot = i
  | wipe idx => i = idx
  | reboot => True

/-- An operation on the map. A selection changes no session. A wipe leaves nothing of a
session, in RAM or stored; a wipe of the contact in use leaves no contact in use, with an empty
working copy. -/
def SessionMap.step (P : Primitives K) (m : SessionMap K) : StoreOp → SessionMap K
  | .setActive idx => if maxContacts ≤ idx then m else { m with current := idx }
  | .session op lands =>
    let own := op.ownLate m.current
    let st := m.session m.current
    { m with
      session := fun j =>
        if j = m.current then own.state P m.current m.nvs st
        else (m.session j).carryOut (op.late.filter (·.slot == j))
      nvs := m.nvs.putAll (Store.landed lands (own.writes P m.current st)) }
  | .wipe idx =>
    if maxContacts ≤ idx then m
    else
      { session := fun j =>
          if j = idx ∨ idx = m.current ∧ j = 255 then .zero P else m.session j
        nvs := m.nvs.eraseAll (sessionKeys idx)
        current := if idx = m.current then 255 else m.current }
  | .reboot =>
    { session := fun i => (ratchetReload m.nvs i).getD (.zero P), nvs := m.nvs, current := 0 }

/-- An operation keeps the sessions of the contacts it does not concern. -/
theorem SessionMap.step_other (P : Primitives K) (m : SessionMap K) (op : StoreOp) {j : ℕ}
    (hj : j < maxContacts) (hother : ¬ op.Concerns m.current j) :
    (m.step P op).session j = m.session j := by
  have hnone : j ≠ 255 := fun h => absurd (h ▸ hj) (by decide)
  have hfilter : ∀ late : List LateRequest, (¬ ∃ r ∈ late, r.slot = j) →
      late.filter (·.slot == j) = [] := by
    intro late hlate
    rw [List.filter_eq_nil_iff]
    intro r hr hslot
    exact hlate ⟨r, hr, by simpa using hslot⟩
  cases op with
  | setActive idx =>
    rw [SessionMap.step]
    split_ifs <;> rfl
  | session op lands =>
    have hlate : op.late.filter (·.slot == j) = [] := by
      apply hfilter
      cases op with
      | call c =>
        cases c with
        | cryptoTask late => exact hother
        | encrypt => exact fun h => hother (.inr h)
        | decrypt => exact fun h => hother (.inr h)
      | _ => exact fun h => hother (.inr h)
    simp only [SessionMap.step, hlate]
    split_ifs with hcurrent
    · -- only the requests of the crypto task leave out the contact in use
      cases op with
      | call c =>
        cases c with
        | cryptoTask late =>
          subst hcurrent
          simp only [SessionOp.late] at hlate
          simp [SessionOp.ownLate, SessionOp.state, RatchetCall.state, hlate]
        | encrypt => exact absurd (.inl hcurrent) hother
        | decrypt => exact absurd (.inl hcurrent) hother
      | _ => exact absurd (.inl hcurrent) hother
    · rfl
  | wipe idx =>
    rw [SessionMap.step]
    split_ifs
    · rfl
    · exact if_neg (by rintro (h | h); exacts [hother h, hnone h.2])
    · exact if_neg (by rintro (h | h); exacts [hother h, hnone h.2])
  | reboot => exact absurd trivial hother

/-! ### The keys an operation writes -/

/-- `pq_nvs_save` of a slot outside the table writes nothing. -/
theorem lt_of_mem_pqNvsSave {idx : ℕ} {pq : PqKemState} {w : NvsWrite K}
    (h : w ∈ pqNvsSave idx pq) : idx < maxContacts := by
  by_contra hidx
  rw [pqNvsSave, if_pos (Nat.le_of_not_lt hidx)] at h
  cases h

/-- So does `ratchet_save_state`. -/
theorem lt_of_mem_ratchetSaveState {idx : ℕ} {st : RatchetState K} {w : NvsWrite K}
    (h : w ∈ ratchetSaveState idx st) : idx < maxContacts := by
  by_contra hidx
  rw [ratchetSaveState, if_pos (Nat.le_of_not_lt hidx)] at h
  cases h

/-- A write under a key of the ratchet or of the PQ part of a slot. -/
def IsSessionWrite (idx : ℕ) (w : NvsWrite K) : Prop :=
  idx < maxContacts ∧ (w.1 = ratKey idx ∨ ∃ field ∈ pqSuffixes, w.1 = pqKey idx field)

/-- The ratchet blob is a write of its session. -/
theorem isSessionWrite_of_ratchetSaveState {idx : ℕ} {st : RatchetState K} {w : NvsWrite K}
    (h : w ∈ ratchetSaveState idx st) : IsSessionWrite idx w :=
  ⟨lt_of_mem_ratchetSaveState h, Or.inl (by rw [mem_ratchetSaveState h])⟩

/-- So are the blobs of the PQ state. -/
theorem isSessionWrite_of_pqNvsSave {idx : ℕ} {pq : PqKemState} {w : NvsWrite K}
    (h : w ∈ pqNvsSave idx pq) : IsSessionWrite idx w :=
  ⟨lt_of_mem_pqNvsSave h, Or.inr (mem_pqNvsSave h)⟩

/-- An ADVANCE writes for its slot. -/
theorem isSessionWrite_of_advanceRatchet {P : Primitives K} {idx : ℕ} {enabled : Bool}
    {draws : DecryptDraws} {recvPq : Option ParsedMsgHeader} {peerNewPub : Bytes 56}
    {st : RatchetState K} {w : NvsWrite K}
    (h : w ∈ (advanceRatchet P idx enabled draws recvPq peerNewPub st).writes) :
    IsSessionWrite idx w := by
  rw [advanceRatchet] at h
  cases hrecv : P.x448Dh peerNewPub st.dhSelf.privateKey with
  | none => simp [hrecv] at h
  | some dhRecv =>
    simp only [hrecv] at h
    split_ifs at h
    · exact isSessionWrite_of_pqNvsSave h
    · cases h

/-- An encryption or a decryption writes for the slot it is told. -/
theorem isSessionWrite_of_call {P : Primitives K} {idx : ℕ} {st : RatchetState K}
    {call : RatchetCall} {w : NvsWrite K} (h : w ∈ call.writes P idx st) :
    IsSessionWrite idx w := by
  cases call with
  | encrypt enabled cleanup plaintext paddedMsgLen =>
    rw [RatchetCall.writes] at h
    rcases ratchetEncrypt_cases P idx enabled cleanup st plaintext paddedMsgLen with
      ⟨-, he⟩ | ⟨-, -, he⟩ | ⟨-, -, _, _, -, -, he⟩
    · rw [he] at h
      cases h
    · rw [he] at h
      cases h
    · rw [he] at h
      exact isSessionWrite_of_ratchetSaveState h
  | decrypt enabled draws recvPq call =>
    rw [RatchetCall.writes] at h
    rcases ratchetDecryptBody_cases P idx enabled draws recvPq st call with
      ⟨-, e, hd⟩ | ⟨-, -, plaintext, -, hd⟩ | ⟨-, e, hd⟩ | ⟨-, keys, plaintext, -, -, hd⟩
    · rw [hd] at h
      cases h
    · rw [hd] at h
      exact isSessionWrite_of_ratchetSaveState h
    · rw [hd] at h
      exact isSessionWrite_of_advanceRatchet h
    · rw [hd] at h
      rcases List.mem_append.mp h with hadvance | hsave
      · exact isSessionWrite_of_advanceRatchet hadvance
      · exact isSessionWrite_of_ratchetSaveState hsave
  | cryptoTask late => cases h

/-- An operation writes for the contact in use or for the slot it is told to save. -/
theorem SessionOp.isSessionWrite {P : Primitives K} {current : ℕ} {st : RatchetState K}
    {op : SessionOp} {w : NvsWrite K} (h : w ∈ op.writes P current st) :
    ∃ idx, (idx = current ∨ op.target = some idx) ∧ IsSessionWrite idx w := by
  cases op with
  | call c => exact ⟨current, Or.inl rfl, isSessionWrite_of_call h⟩
  | initSender peerDhPublic ourKey2 =>
    simp only [SessionOp.writes] at h
    split_ifs at h
    · exact ⟨current, Or.inl rfl, isSessionWrite_of_ratchetSaveState h⟩
    · cases h
  | saveState idx => exact ⟨idx, Or.inr rfl, isSessionWrite_of_ratchetSaveState h⟩
  | pqSave idx => exact ⟨idx, Or.inr rfl, isSessionWrite_of_pqNvsSave h⟩
  | x3dhSender _ _ _ _ => cases h
  | loadState _ => cases h
  | pqLoad _ => cases h

/-- A write for one slot is under no session key of another. -/
theorem IsSessionWrite.ne {idx j : ℕ} {w : NvsWrite K} (h : IsSessionWrite idx w)
    (hj : j < maxContacts) (hne : idx ≠ j) :
    w.1 ≠ ratKey j ∧ ∀ field ∈ pqSuffixes, w.1 ≠ pqKey j field := by
  obtain ⟨hidx, hkey⟩ := h
  have hj' : j < 128 := hj
  have hidx' : idx < 128 := hidx
  rcases hkey with hkey | ⟨field, -, hkey⟩
  · refine ⟨fun he => ?_, fun field _ he => ratKey_ne_pqKey idx j field (hkey.symm.trans he)⟩
    have hslots := (String.append_right_inj _).mp (hkey.symm.trans he)
    exact hne (fmt02u_inj (by omega) (by omega) hslots)
  · refine ⟨fun he => ratKey_ne_pqKey j idx field (he.symm.trans hkey), fun field' _ he => ?_⟩
    exact hne (pqKey_slot_inj (by omega) (by omega) (hkey.symm.trans he))

/-! ### The state of a session after an operation -/

/-- No operation takes back an initialised session. -/
theorem SessionOp.state_initialized {P : Primitives K} {current : ℕ} {nvs : Nvs K}
    {st : RatchetState K} (op : SessionOp) (h : st.initialized = true) :
    (op.state P current nvs st).initialized = true := by
  cases op with
  | call c =>
    cases c with
    | encrypt enabled cleanup plaintext paddedMsgLen =>
      rw [SessionOp.state, RatchetCall.state]
      rcases ratchetEncrypt_cases P current enabled cleanup st plaintext paddedMsgLen with
        ⟨-, he⟩ | ⟨-, -, he⟩ | ⟨-, -, _, _, -, -, he⟩ <;>
      · rw [he]
        exact h
    | decrypt enabled draws recvPq body =>
      rw [SessionOp.state, RatchetCall.state]
      rcases ratchetDecryptBody_cases P current enabled draws recvPq st body with
        ⟨-, e, hd⟩ | ⟨-, -, plaintext, -, hd⟩ | ⟨-, e, hd⟩ | ⟨-, keys, plaintext, -, -, hd⟩ <;>
      · rw [hd]
        exact h
    | cryptoTask late => exact h
  | x3dhSender peerKey1 peerKey2 ourKey1 ourKey2 =>
    rw [SessionOp.state, ratchetX3dhSender]
    cases x3dhSecrets P peerKey1 peerKey2 ourKey1 ourKey2 <;> exact h
  | initSender peerDhPublic ourKey2 =>
    rw [SessionOp.state, ratchetInitSender]
    cases P.x448Dh peerDhPublic ourKey2.privateKey with
    | none => exact h
    | some dhOut => rfl
  | loadState idx =>
    rw [SessionOp.state]
    cases hload : ratchetLoadState nvs idx with
    | none => exact h
    | some loaded => exact (ratchetLoadState_eq_some hload).2
  | saveState idx => exact h
  | pqSave idx => exact h
  | pqLoad idx => exact h

/-- Only an initialised session is saved. -/
theorem initialized_of_mem_ratchetSaveState {idx : ℕ} {st : RatchetState K} {w : NvsWrite K}
    (h : w ∈ ratchetSaveState idx st) : st.initialized = true := by
  rw [ratchetSaveState] at h
  split_ifs at h with _ hinit
  · cases h
  · cases h
  · simpa using hinit

/-- A ratchet blob is written by an operation that leaves an initialised session. -/
theorem SessionOp.initialized_of_write {P : Primitives K} {current : ℕ} {nvs : Nvs K}
    {st : RatchetState K} {op : SessionOp} {w : NvsWrite K} (h : w ∈ op.writes P current st)
    {j : ℕ} (hkey : w.1 = ratKey j) : (op.state P current nvs st).initialized = true := by
  have hpq : ∀ {idx : ℕ} {pq : PqKemState}, w ∉ pqNvsSave idx pq := by
    intro idx pq hw
    obtain ⟨field, -, hfield⟩ := mem_pqNvsSave hw
    exact ratKey_ne_pqKey j idx field (hkey.symm.trans hfield)
  cases op with
  | call c =>
    cases c with
    | encrypt enabled cleanup plaintext paddedMsgLen =>
      rw [SessionOp.writes, RatchetCall.writes] at h
      rw [SessionOp.state, RatchetCall.state]
      rcases ratchetEncrypt_cases P current enabled cleanup st plaintext paddedMsgLen with
        ⟨-, he⟩ | ⟨-, -, he⟩ | ⟨-, -, _, _, -, -, he⟩
      · rw [he] at h
        cases h
      · rw [he] at h
        cases h
      · rw [he] at h ⊢
        exact initialized_of_mem_ratchetSaveState h
    | decrypt enabled draws recvPq body =>
      have hadvance : w ∉
          (advanceRatchet P current enabled draws recvPq body.peerNewPub st).writes := by
        intro hw
        obtain ⟨field, hfield⟩ := mem_advanceRatchet_writes P current enabled draws recvPq st hw
        exact ratKey_ne_pqKey j current field (hkey.symm.trans hfield)
      rw [SessionOp.writes, RatchetCall.writes] at h
      rw [SessionOp.state, RatchetCall.state]
      rcases ratchetDecryptBody_cases P current enabled draws recvPq st body with
        ⟨-, e, hd⟩ | ⟨-, -, plaintext, -, hd⟩ | ⟨-, e, hd⟩ | ⟨-, keys, plaintext, -, -, hd⟩
      · rw [hd] at h
        cases h
      · rw [hd] at h ⊢
        exact initialized_of_mem_ratchetSaveState h
      · rw [hd] at h
        exact absurd h hadvance
      · rw [hd] at h ⊢
        exact initialized_of_mem_ratchetSaveState ((List.mem_append.mp h).resolve_left hadvance)
    | cryptoTask late => cases h
  | initSender peerDhPublic ourKey2 =>
    simp only [SessionOp.writes] at h
    split_ifs at h
    · exact initialized_of_mem_ratchetSaveState h
    · cases h
  | saveState idx => exact initialized_of_mem_ratchetSaveState h
  | pqSave idx => exact absurd h hpq
  | x3dhSender _ _ _ _ => cases h
  | loadState _ => cases h
  | pqLoad _ => cases h

/-- Late requests of the contact in use are all its own. -/
theorem SessionOp.ownLate_eq {op : SessionOp} {i : ℕ} (h : ∀ r ∈ op.late, r.slot = i) :
    op.ownLate i = op := by
  have hfilter : ∀ late : List LateRequest, (∀ r ∈ late, r.slot = i) →
      late.filter (·.slot == i) = late :=
    fun late hlate => List.filter_eq_self.mpr fun r hr => by simpa using hlate r hr
  cases op with
  | call c =>
    cases c with
    | encrypt => rfl
    | decrypt enabled draws recvPq body =>
      simp only [SessionOp.late, List.mem_append] at h
      have hduring : draws.kem.late.filter (·.slot == i) = draws.kem.late :=
        hfilter _ fun r hr => h r (.inl (.inl (.inr hr)))
      have hlate : (fun point => (draws.late point).filter (·.slot == i)) = draws.late := by
        funext point
        apply hfilter
        intro r hr
        apply h r
        cases point with
        | before => exact .inl (.inl (.inl hr))
        | after => exact .inl (.inr hr)
        | finish => exact .inr hr
      rw [SessionOp.ownLate, hduring, hlate]
    | cryptoTask late => rw [SessionOp.ownLate, hfilter late h]
  | _ => rfl

/-! ### The device -/

/-- An operation of the store on the device. -/
def ContactDevice.storeStep (P : Primitives K) (dev : ContactDevice K) :
    StoreOp → ContactDevice K
  | .setActive idx => dev.ratchetSetActive idx
  | .session op lands =>
    { dev with
      ratchetState := op.state P dev.activeRatchetIdx dev.nvs dev.ratchetState
      nvs := dev.nvs.putAll
        (Store.landed lands (op.writes P dev.activeRatchetIdx dev.ratchetState)) }
  | .wipe idx => dev.ratchetWipeSlot P idx
  | .reboot => dev.resetRam P

/-- The entries of `ratchet_states` an operation reads or writes. `ratchet_multi_init` copies
the working copy to slot 0. -/
def ContactDevice.tableAccesses (dev : ContactDevice K) : StoreOp → List ℕ
  | .setActive idx => dev.setActiveAccesses idx
  | .session _ _ => []
  | .wipe idx => if maxContacts ≤ idx then [] else [idx]
  | .reboot => [0]

/-- What a selection of a slot finds: its session in RAM, or the stored one. -/
def ContactDevice.found (dev : ContactDevice K) (i : ℕ) : RatchetState K :=
  if (dev.slotRatchet i).initialized then dev.slotRatchet i
  else (ratchetReload dev.nvs i).getD (dev.slotRatchet i)

/-- It is the session in RAM where nothing is stored. -/
theorem ContactDevice.found_of_not_stored {dev : ContactDevice K} {i : ℕ}
    (h : (dev.slotRatchet i).initialized = true ∨ ratchetReload dev.nvs i = none) :
    dev.found i = dev.slotRatchet i := by
  rw [ContactDevice.found]
  split_ifs with hinit
  · rfl
  · rw [h.resolve_left hinit, Option.getD_none]

/-- It depends on what RAM and NVS have of the slot. -/
theorem ContactDevice.found_congr {dev dev' : ContactDevice K} {i : ℕ}
    (hslot : dev'.slotRatchet i = dev.slotRatchet i)
    (hreload : ratchetReload dev'.nvs i = ratchetReload dev.nvs i) :
    dev'.found i = dev.found i := by
  rw [ContactDevice.found, ContactDevice.found, hslot, hreload]

/-- The contact in use has its session in the working copy. -/
theorem slotRatchet_active (dev : ContactDevice K) :
    dev.slotRatchet dev.activeRatchetIdx = dev.ratchetState := if_pos rfl

/-- A selection makes its slot the one in use. -/
theorem ratchetSetActive_idx (dev : ContactDevice K) {idx : ℕ} (hidx : idx < maxContacts) :
    (dev.ratchetSetActive idx).activeRatchetIdx = idx := by
  rw [ContactDevice.ratchetSetActive, if_neg (Nat.not_le_of_lt hidx)]
  dsimp only
  split_ifs
  · rfl
  · cases ratchetReload dev.nvs idx <;> rfl

/-- A selection leaves what it finds in the slot selected, and the other sessions. -/
theorem ratchetSetActive_slotRatchet (dev : ContactDevice K) {i idx : ℕ} (hi : i < maxContacts)
    (hidx : idx < maxContacts) :
    (dev.ratchetSetActive idx).slotRatchet i =
      if i = idx then dev.found idx else dev.slotRatchet i := by
  split_ifs with hne
  · subst hne
    rw [ContactDevice.slotRatchet, if_pos (ratchetSetActive_idx dev hi),
      ratchetSetActive_found dev hi]
    rfl
  · exact (ratchetSetActive_other dev hi hidx (Ne.symm hne)).1

/-- A selection leaves what selections find. -/
theorem ratchetSetActive_keeps_found (dev : ContactDevice K) {i idx : ℕ} (hi : i < maxContacts)
    (hidx : idx < maxContacts) : (dev.ratchetSetActive idx).found i = dev.found i := by
  obtain ⟨hnvs, -, -⟩ := ratchetSetActive_records dev idx
  by_cases hne : i = idx
  · subst hne
    rw [ContactDevice.found, ratchetSetActive_slotRatchet dev hi hi, if_pos rfl, hnvs]
    split_ifs with hinit
    · rfl
    · -- a stored session would have been loaded
      cases hreload : ratchetReload dev.nvs i with
      | none => rfl
      | some st =>
        refine absurd ?_ hinit
        rw [ContactDevice.found]
        split_ifs with hslot
        · exact hslot
        · rw [hreload]
          exact (ratchetReload_eq_some hreload).2.2.1
  · apply ContactDevice.found_congr
    · rw [ratchetSetActive_slotRatchet dev hi hidx, if_neg hne]
    · rw [hnvs]

/-- An operation on the contact in use changes its session. -/
theorem storeStep_session_slotRatchet_eq (P : Primitives K) (dev : ContactDevice K)
    (op : SessionOp) (lands : ℕ → Bool) :
    (dev.storeStep P (.session op lands)).slotRatchet =
      Function.update dev.slotRatchet dev.activeRatchetIdx
        (op.state P dev.activeRatchetIdx dev.nvs dev.ratchetState) := by
  funext j
  rw [ContactDevice.slotRatchet, ContactDevice.storeStep]
  by_cases hj : j = dev.activeRatchetIdx
  · rw [if_pos hj.symm, hj, Function.update_self]
  · rw [if_neg (Ne.symm hj), Function.update_of_ne hj, ContactDevice.slotRatchet,
      if_neg (Ne.symm hj)]

/-- A wipe empties its slot and, if that was in use, the working copy. -/
theorem ratchetWipeSlot_slotRatchet_eq (P : Primitives K) (dev : ContactDevice K) {idx : ℕ}
    (hidx : idx < maxContacts) (j : ℕ) :
    (dev.ratchetWipeSlot P idx).slotRatchet j =
      if j = idx ∨ idx = dev.activeRatchetIdx ∧ j = 255 then .zero P else dev.slotRatchet j := by
  have hnone : (255 : ℕ) ≠ idx := fun h => absurd (h ▸ hidx) (by decide)
  rw [ContactDevice.ratchetWipeSlot, if_neg (Nat.not_le_of_lt hidx), ContactDevice.slotRatchet]
  dsimp only
  by_cases hactive : idx = dev.activeRatchetIdx
  · by_cases hj : j = 255
    · simp [hactive, hj]
    · by_cases hji : j = idx
      · simp [← hactive, hji, hnone]
      · simp only [if_pos hactive, if_neg (Ne.symm hj), hji, hj, and_false, or_false, if_false]
        rw [Function.update_of_ne hji, ContactDevice.slotRatchet,
          if_neg fun h => hji (h.symm.trans hactive.symm)]
  · by_cases hji : j = idx
    · simp [hactive, hji, Ne.symm hactive]
    · simp only [hji, hactive, false_and, or_self, if_false]
      rw [Function.update_of_ne hji, ContactDevice.slotRatchet]

/-! ### One operation -/

/-- The device agrees with the map: a selection finds the state last left for its contact, and
the working copy is the one of the contact in use. -/
structure Matches (dev : ContactDevice K) (m : SessionMap K) : Prop where
  nvs : dev.nvs = m.nvs
  current : dev.activeRatchetIdx = m.current
  session : ∀ i, i < maxContacts ∨ i = m.current → dev.found i = m.session i

/-- What an operation is to do: it is the operation on the map, a selection makes current what
was left for the contact, the contacts it does not concern keep theirs, and it stays inside
the table. -/
structure StoreStep (P : Primitives K) (dev : ContactDevice K) (m : SessionMap K)
    (op : StoreOp) : Prop where
  refines : Matches (dev.storeStep P op) (m.step P op)
  selects : ∀ idx < maxContacts, op = .setActive idx →
    (dev.storeStep P op).activeRatchetIdx = idx ∧
      (dev.storeStep P op).ratchetState = m.session idx
  keeps : ∀ j < maxContacts, ¬ op.Concerns dev.activeRatchetIdx j →
    (dev.storeStep P op).found j = dev.found j
  inTable : ∀ entry ∈ dev.tableAccesses op, entry < maxContacts

/-- The working copy is what is left for its contact: it is initialised, or NVS has nothing to
load for that contact. -/
def ContactDevice.InUse (dev : ContactDevice K) : Prop :=
  dev.ratchetState.initialized = true ∨ ratchetReload dev.nvs dev.activeRatchetIdx = none

/-- The condition on an operation. A contact is selected while a slot of the table is active,
not after a wipe of the active one; the working copy is used once the session of its contact
has been loaded, for that contact and with its own late requests only; and a wiped session is
no longer stored. -/
def StoreOp.Regular (dev : ContactDevice K) : StoreOp → Prop
  | .setActive idx => idx < maxContacts → dev.activeRatchetIdx < maxContacts
  | .session op _ =>
    (dev.InUse ∨ op.Loads dev.nvs) ∧
      (∀ idx, op.target = some idx → idx = dev.activeRatchetIdx) ∧
      ∀ r ∈ op.late, r.slot = dev.activeRatchetIdx
  | .wipe idx => idx < maxContacts → ∀ key ∈ sessionKeys idx, dev.nvs key = none
  | .reboot => True

/-- Nothing is loaded for a slot behind the table. -/
theorem ratchetReload_of_not_lt {nvs : Nvs K} {i : ℕ} (h : ¬ i < maxContacts) :
    ratchetReload nvs i = none := by
  rw [ratchetReload, ratchetLoadState, if_pos (Nat.le_of_not_lt h)]
  rfl

/-- The writes of an operation for the contact in use leave what is stored for another. -/
theorem storeStep_session_reload {P : Primitives K} {dev : ContactDevice K} {op : SessionOp}
    {lands : ℕ → Bool} (htarget : ∀ idx, op.target = some idx → idx = dev.activeRatchetIdx)
    {j : ℕ} (hj : j ≠ dev.activeRatchetIdx) :
    ratchetReload (dev.storeStep P (.session op lands)).nvs j = ratchetReload dev.nvs j := by
  by_cases hlt : j < maxContacts
  · have hwrites : ∀ w ∈ Store.landed lands
        (op.writes P dev.activeRatchetIdx dev.ratchetState),
        w.1 ≠ ratKey j ∧ ∀ field ∈ pqSuffixes, w.1 ≠ pqKey j field := by
      intro w hw
      obtain ⟨idx, hslot, hwrite⟩ := op.isSessionWrite ((Store.landed_sublist ..).subset hw)
      refine hwrite.ne hlt ?_
      rintro rfl
      exact hj (hslot.elim id (htarget idx))
    apply ratchetReload_congr
    · exact Store.putAll_of_forall_ne _ _ _ fun w hw => (hwrites w hw).1
    · intro field hfield
      exact Store.putAll_of_forall_ne _ _ _ fun w hw => (hwrites w hw).2 field hfield
  · rw [ratchetReload_of_not_lt hlt, ratchetReload_of_not_lt hlt]

/-- After a regular operation the working copy is what is left for its contact. -/
theorem storeStep_session_found {P : Primitives K} {dev : ContactDevice K} {op : SessionOp}
    {lands : ℕ → Bool} (huse : dev.InUse ∨ op.Loads dev.nvs) :
    (dev.storeStep P (.session op lands)).found dev.activeRatchetIdx =
      op.state P dev.activeRatchetIdx dev.nvs dev.ratchetState := by
  have hslot : (dev.storeStep P (.session op lands)).slotRatchet dev.activeRatchetIdx =
      op.state P dev.activeRatchetIdx dev.nvs dev.ratchetState := by
    rw [storeStep_session_slotRatchet_eq, Function.update_self]
  rw [← hslot]
  apply ContactDevice.found_of_not_stored
  rw [hslot]
  by_cases hinit : (op.state P dev.activeRatchetIdx dev.nvs dev.ratchetState).initialized = true
  · exact .inl hinit
  · right
    have hnone : ratchetReload dev.nvs dev.activeRatchetIdx = none := by
      rcases huse with hcopy | hload
      · exact hcopy.resolve_left fun h => hinit (op.state_initialized h)
      · cases op with
        | loadState idx =>
          obtain ⟨loaded, hloaded⟩ := Option.isSome_iff_exists.mp hload
          refine absurd ?_ hinit
          rw [SessionOp.state, hloaded]
          exact (ratchetLoadState_eq_some hloaded).2
        | _ => exact hload.elim
    -- a session that is not initialised has not been written
    have hrat : (dev.storeStep P (.session op lands)).nvs (ratKey dev.activeRatchetIdx) =
        dev.nvs (ratKey dev.activeRatchetIdx) :=
      Store.putAll_of_forall_ne _ _ _ fun w hw hkey =>
        hinit (op.initialized_of_write ((Store.landed_sublist ..).subset hw) hkey)
    rw [ratchetReload, Option.map_eq_none_iff] at hnone ⊢
    rw [ratchetLoadState_congr hrat, hnone]

section Regular

variable {P : Primitives K} {dev : ContactDevice K} {m : SessionMap K}

/-- A regular operation on the contact in use is the one on the map. -/
theorem Matches.session_step (h : Matches dev m) {op : SessionOp} {lands : ℕ → Bool}
    (hregular : (StoreOp.session op lands).Regular dev) :
    Matches (dev.storeStep P (.session op lands)) (m.step P (.session op lands)) := by
  obtain ⟨huse, htarget, hlate⟩ := hregular
  have hown : op.ownLate m.current = op := SessionOp.ownLate_eq (h.current ▸ hlate)
  have hothers : ∀ j, j ≠ m.current → op.late.filter (·.slot == j) = [] := by
    intro j hj
    rw [List.filter_eq_nil_iff]
    intro r hr hslot
    exact hj (by rw [← h.current, ← hlate r hr]; simpa using Eq.symm (eq_of_beq hslot))
  -- the two start from the same state, or load the same one
  have hcopy : op.state P m.current m.nvs (m.session m.current) =
        op.state P dev.activeRatchetIdx dev.nvs dev.ratchetState ∧
      op.writes P m.current (m.session m.current) =
        op.writes P dev.activeRatchetIdx dev.ratchetState := by
    rw [← h.session m.current (.inr rfl), ← h.current, ← h.nvs]
    rcases huse with hcopy | hload
    · rw [ContactDevice.found_of_not_stored (by rwa [slotRatchet_active]), slotRatchet_active]
      exact ⟨rfl, rfl⟩
    · cases op with
      | loadState idx =>
        obtain ⟨loaded, hloaded⟩ := Option.isSome_iff_exists.mp hload
        simp only [SessionOp.state, SessionOp.writes, hloaded, Option.getD_some, and_self]
      | _ => exact hload.elim
  refine ⟨?_, h.current, fun i _ => ?_⟩
  · simp only [SessionMap.step, ContactDevice.storeStep, hown, hcopy.2, h.nvs]
  · simp only [SessionMap.step, hown]
    split_ifs with hi
    · rw [hi, hcopy.1, ← h.current]
      exact storeStep_session_found huse
    · rw [hothers i hi, RatchetState.carryOut_nil, ← h.session i (by assumption)]
      have hne : i ≠ dev.activeRatchetIdx := h.current ▸ hi
      apply ContactDevice.found_congr
      · rw [storeStep_session_slotRatchet_eq, Function.update_of_ne hne]
      · exact storeStep_session_reload htarget hne

/-- So is a selection from a slot of the table. -/
theorem Matches.setActive_step (h : Matches dev m) {idx : ℕ} (hidx : idx < maxContacts) :
    Matches (dev.storeStep P (.setActive idx)) (m.step P (.setActive idx)) := by
  obtain ⟨hnvs, -, -⟩ := ratchetSetActive_records dev idx
  rw [SessionMap.step, if_neg (Nat.not_le_of_lt hidx)]
  refine ⟨hnvs.trans h.nvs, ratchetSetActive_idx dev hidx, fun i hi => ?_⟩
  have hlt : i < maxContacts := hi.elim id fun he => he ▸ hidx
  exact (ratchetSetActive_keeps_found dev hlt hidx).trans (h.session i (.inl hlt))

/-- So is a wipe of a slot that is not stored. -/
theorem Matches.wipe_step (h : Matches dev m) {idx : ℕ} (hidx : idx < maxContacts)
    (hstored : ∀ key ∈ sessionKeys idx, dev.nvs key = none) :
    Matches (dev.storeStep P (.wipe idx)) (m.step P (.wipe idx)) := by
  have hnvs : (dev.ratchetWipeSlot P idx).nvs = dev.nvs :=
    ContactDevice.ratchetWipeSlot_nvs P dev idx
  have herased : dev.nvs.eraseAll (sessionKeys idx) = dev.nvs := by
    funext key
    rw [Store.eraseAll_apply]
    split_ifs with hkey
    · exact (hstored key hkey).symm
    · rfl
  have hactive : (dev.ratchetWipeSlot P idx).activeRatchetIdx =
      if idx = dev.activeRatchetIdx then 255 else dev.activeRatchetIdx := by
    rw [ContactDevice.ratchetWipeSlot, if_neg (Nat.not_le_of_lt hidx)]
  have hreload : ratchetReload dev.nvs idx = none := by
    rw [ratchetReload, ratchetLoadState, hstored (ratKey idx) List.mem_cons_self]
    simp
  simp only [SessionMap.step, if_neg (Nat.not_le_of_lt hidx)]
  rw [← h.nvs, ← h.current, herased]
  refine ⟨hnvs, hactive, fun i hi => ?_⟩
  rw [ContactDevice.storeStep, ContactDevice.found, ratchetWipeSlot_slotRatchet_eq P dev hidx, hnvs]
  by_cases hwiped : i = idx ∨ idx = dev.activeRatchetIdx ∧ i = 255
  · have hnone : ratchetReload dev.nvs i = none := by
      rcases hwiped with rfl | ⟨-, rfl⟩
      · exact hreload
      · exact ratchetReload_of_not_lt (by decide)
    simp only [if_pos hwiped, hnone, Option.getD_none, ite_self]
  · simp only [if_neg hwiped]
    refine h.session i ?_
    rcases hi with hlt | hcurrent
    · exact .inl hlt
    · -- the contact in use is still the same one
      by_cases hwas : idx = dev.activeRatchetIdx
      · rw [if_pos hwas] at hcurrent
        exact absurd (.inr ⟨hwas, hcurrent⟩) hwiped
      · rw [if_neg hwas] at hcurrent
        exact .inr (hcurrent.trans h.current)

/-- A restart takes the sessions from NVS. -/
theorem Matches.reboot (dev : ContactDevice K) (m : SessionMap K) (hnvs : dev.nvs = m.nvs) :
    Matches (dev.resetRam P) (m.step P .reboot) := by
  refine ⟨hnvs, rfl, fun i _ => ?_⟩
  have hslot : (dev.resetRam P).slotRatchet i = .zero P := ite_self _
  rw [ContactDevice.found, hslot]
  exact congrArg (fun nvs => (ratchetReload nvs i).getD (.zero P)) hnvs

/-- A regular operation does what it is to do. -/
theorem Matches.storeStep (h : Matches dev m) {op : StoreOp} (hregular : op.Regular dev) :
    StoreStep P dev m op := by
  have hrefines : Matches (dev.storeStep P op) (m.step P op) := by
    cases op with
    | setActive idx =>
      by_cases hidx : idx < maxContacts
      · exact h.setActive_step hidx
      · rw [ContactDevice.storeStep, ContactDevice.ratchetSetActive, SessionMap.step,
          if_pos (Nat.le_of_not_lt hidx), if_pos (Nat.le_of_not_lt hidx)]
        exact h
    | session op lands => exact h.session_step hregular
    | wipe idx =>
      by_cases hidx : idx < maxContacts
      · exact h.wipe_step hidx (hregular hidx)
      · rw [ContactDevice.storeStep, ContactDevice.ratchetWipeSlot, SessionMap.step,
          if_pos (Nat.le_of_not_lt hidx), if_pos (Nat.le_of_not_lt hidx)]
        exact h
    | reboot => exact .reboot dev m h.nvs
  refine ⟨hrefines, ?_, fun j hj hother => ?_, ?_⟩
  · rintro idx hidx rfl
    have hactive := hrefines.current
    rw [SessionMap.step, if_neg (Nat.not_le_of_lt hidx)] at hactive
    exact ⟨hactive, (ratchetSetActive_found dev hidx).trans (h.session idx (.inl hidx))⟩
  · rw [hrefines.session j (.inl hj), h.session j (.inl hj)]
    exact m.step_other P op hj (h.current ▸ hother)
  · cases op with
    | setActive idx => exact (setActiveAccesses_lt_iff dev idx).mpr hregular
    | session op lands => simp [ContactDevice.tableAccesses]
    | wipe idx =>
      rw [ContactDevice.tableAccesses]
      split_ifs with hidx
      · simp
      · simpa using hidx
    | reboot => simp [ContactDevice.tableAccesses, maxContacts]

end Regular

/-! ### Runs -/

/-- The device and the map together. -/
structure StoreRun (K : Type) where
  device : ContactDevice K
  map : SessionMap K

/-- One operation on both. -/
def StoreRun.step (P : Primitives K) (r : StoreRun K) (op : StoreOp) : StoreRun K where
  device := r.device.storeStep P op
  map := r.map.step P op

/-- A start with what NVS has. -/
def StoreRun.start (P : Primitives K) (nvs : Nvs K) : StoreRun K where
  device := { ContactDevice.blank P with nvs }
  map := { session := fun i => (ratchetReload nvs i).getD (.zero P), nvs, current := 0 }

/-- In every run of regular operations, from a start with any store, each operation does what
it is to do. -/
theorem ratchetStore_refines (P : Primitives K) (nvs : Nvs K) (ops : List StoreOp)
    (h : StepsMeet (StoreRun.step P) (fun r op => op.Regular r.device) (.start P nvs) ops) :
    StepsMeet (StoreRun.step P) (fun r op => StoreStep P r.device r.map op) (.start P nvs) ops := by
  have hstep : ∀ (r : StoreRun K) (op : StoreOp), Matches r.device r.map → op.Regular r.device →
      Matches (r.step P op).device (r.step P op).map :=
    fun _ _ hmatches hop => (hmatches.storeStep hop).refines
  refine h.invariant_step hstep (fun _ _ hmatches hop => hmatches.storeStep hop) ?_
  exact .reboot (P := P) { ContactDevice.blank P with nvs }
    { session := fun i => (ratchetReload nvs i).getD (.zero P), nvs, current := 0 } rfl

/-- A store that has a session of contact 1. -/
def storedSession : Nvs SymKey :=
  Store.put (fun _ => none) (ratKey 1) (.ratchet sampleSession.toRatchetClassical)

/-- Contact 1 is selected and removed, and the next one is selected: the working copy goes to
entry 255. A session of contact 1 that is still stored comes back after its wipe. And a key pair
that was asked for contact 1 is written into the session of contact 2. -/
theorem ratchetStore_leaves_table :
    ¬ StepsMeet (StoreRun.step symbolic) (fun r op => StoreStep symbolic r.device r.map op)
        (.start symbolic fun _ => none) [.setActive 1, .wipe 1, .setActive 2] ∧
    ¬ StepsMeet (StoreRun.step symbolic) (fun r op => StoreStep symbolic r.device r.map op)
        (.start symbolic storedSession) [.setActive 2, .wipe 1, .setActive 1] ∧
    ¬ StepsMeet (StoreRun.step symbolic) (fun r op => StoreStep symbolic r.device r.map op)
        (.start symbolic fun _ => none)
        [.setActive 2, .session (.call (.cryptoTask [.keygen 1 (symbolicKemPair 5)]))
          fun _ => true] := by
  refine ⟨?_, ?_, ?_⟩
  · rintro ⟨-, -, hselect, -⟩
    exact absurd (hselect.inTable 255 (by decide)) (by decide)
  · rintro ⟨-, -, hselect, -⟩
    -- the map has nothing left for contact 1, the device an initialised session
    have hcopy := (hselect.selects 1 (by decide) rfl).2
    have hinit := congrArg (fun st : RatchetState SymKey => st.initialized) hcopy
    change true = false at hinit
    cases hinit
  · rintro ⟨-, hlate, -⟩
    have hkept := hlate.keeps 2 (by decide) (by simp [StoreOp.Concerns, LateRequest.slot])
    have hpk := congrArg (fun st : RatchetState SymKey => st.pq.ownKemPk[0]) hkept
    exact absurd hpk (by decide)

/-- Contact 1 gets a session, another contact is selected, and contact 1 again after a restart. -/
theorem ratchetStore_refines_selected :
    StepsMeet (StoreRun.step symbolic) (fun r op => StoreStep symbolic r.device r.map op)
      (.start symbolic fun _ => none)
      [.setActive 1,
        .session (.x3dhSender (symbolicPair 1).publicKey (symbolicPair 2).publicKey
          (symbolicPair 3) (symbolicPair 4)) fun _ => true,
        .session (.initSender (symbolicPair 2).publicKey (symbolicPair 4)) fun _ => true,
        .session (.call (.cryptoTask [.keygen 1 (symbolicKemPair 5)])) fun _ => true,
        .setActive 2, .wipe 3, .reboot, .setActive 1,
        .session (.call (.encrypt false false [1] 300)) fun _ => true] := by
  have hnone : ∀ (op : SessionOp), op.target = none → ∀ (active idx : ℕ),
      op.target = some idx → idx = active := by
    intro op htarget active idx hidx
    rw [htarget] at hidx
    cases hidx
  refine ratchetStore_refines symbolic _ _
    ⟨fun _ => by decide, ⟨.inl (.inr rfl), hnone _ rfl _, by simp [SessionOp.late]⟩,
      ⟨.inl (.inr rfl), hnone _ rfl _, by simp [SessionOp.late]⟩,
      ⟨.inl (.inl rfl), hnone _ rfl _, ?_⟩, fun _ => by decide, fun _ => ?_, trivial,
      fun _ => by decide, ⟨.inl (.inl rfl), hnone _ rfl _, by simp [SessionOp.late]⟩, trivial⟩
  · rintro r hr
    obtain rfl := List.mem_singleton.mp hr
    rfl
  · decide

end SimpleGo
