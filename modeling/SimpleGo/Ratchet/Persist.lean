import SimpleGo.Storage.Nvs

/-!
# Persistence of a session

`ratchet_save_state` writes the struct up to its PQ part as one blob, `pq_nvs_save` writes
the PQ part as up to eight blobs. Their callers ignore the results, so here each is the list
of writes it attempts, in order; which of them land is up to the storage. After a reboot the
working copy is zeroed and `ratchet_set_active` loads both parts.
-/

namespace SimpleGo

open Lib

variable {K : Type}

/-- An attempted NVS write. -/
abbrev NvsWrite (K : Type) := String × Blob K

/-- `ratchet_save_state`. -/
def ratchetSaveState (contactIdx : ℕ) (st : RatchetState K) : List (NvsWrite K) :=
  if maxContacts ≤ contactIdx then []
  else if !st.initialized then []
  else [(ratKey contactIdx, .ratchet st.toRatchetClassical)]

/-- `ratchet_load_state`: the state it leaves in RAM, or `none` where it returns false. -/
def ratchetLoadState (nvs : Nvs K) (contactIdx : ℕ) : Option (RatchetState K) :=
  if maxContacts ≤ contactIdx then none
  else
    match nvs (ratKey contactIdx) with
    | some (.ratchet loaded) =>
      if loaded.initialized then some { toRatchetClassical := loaded, pq := .zero } else none
    | _ => none

/-- The fields `pq_nvs_save` writes. -/
def pqSuffixes : List String := ["_act", "_ud", "_st", "_opk", "_osk", "_ppk", "_ct", "_ss"]

/-- `pq_nvs_save`: key material is written only where it is marked valid. -/
def pqNvsSave (contactIdx : ℕ) (pq : PqKemState) : List (NvsWrite K) :=
  if maxContacts ≤ contactIdx then []
  else
    [(pqKey contactIdx "_act", .bytes [pq.pqActive]),
      (pqKey contactIdx "_ud", .bytes [pq.pqUserDisabled]),
      (pqKey contactIdx "_st", .bytes [pq.pqKemState])] ++
    (if pq.ownKemValid ≠ 0 then
      [(pqKey contactIdx "_opk", .bytes pq.ownKemPk.toList),
        (pqKey contactIdx "_osk", .bytes pq.ownKemSk.toList)] else []) ++
    (if pq.peerKemValid ≠ 0 then
      [(pqKey contactIdx "_ppk", .bytes pq.peerKemPk.toList)] else []) ++
    (if pq.pendingCtValid ≠ 0 then
      [(pqKey contactIdx "_ct", .bytes pq.pendingCt.toList)] else []) ++
    (if pq.pendingSsValid ≠ 0 then
      [(pqKey contactIdx "_ss", .bytes pq.pendingSs.toList)] else [])

/-- `pq_nvs_load` into the PQ part of the working copy. Without `_act` nothing is loaded; key
material is loaded, and marked valid, where its blob exists. -/
def pqNvsLoad (nvs : Nvs K) (contactIdx : ℕ) (pq : PqKemState) : PqKemState :=
  let key := pqKey contactIdx
  let has := fun field => smpStorageExists nvs (key field)
  if maxContacts ≤ contactIdx then pq
  else if !has "_act" then pq
  else
    { pqActive := loadByte nvs (key "_act") pq.pqActive
      pqUserDisabled :=
        if has "_ud" then loadByte nvs (key "_ud") pq.pqUserDisabled else pq.pqUserDisabled
      pqKemState := loadByte nvs (key "_st") pq.pqKemState
      ownKemPk := if has "_opk" then loadArray nvs (key "_opk") pq.ownKemPk else pq.ownKemPk
      ownKemSk := if has "_opk" then loadArray nvs (key "_osk") pq.ownKemSk else pq.ownKemSk
      ownKemValid := if has "_opk" then 1 else pq.ownKemValid
      peerKemPk := if has "_ppk" then loadArray nvs (key "_ppk") pq.peerKemPk else pq.peerKemPk
      peerKemValid := if has "_ppk" then 1 else pq.peerKemValid
      pendingCt := if has "_ct" then loadArray nvs (key "_ct") pq.pendingCt else pq.pendingCt
      pendingCtValid := if has "_ct" then 1 else pq.pendingCtValid
      pendingSs := if has "_ss" then loadArray nvs (key "_ss") pq.pendingSs else pq.pendingSs
      pendingSsValid := if has "_ss" then 1 else pq.pendingSsValid }

/-- What `ratchet_set_active` loads for a slot whose RAM copies are empty. -/
def ratchetReload (nvs : Nvs K) (contactIdx : ℕ) : Option (RatchetState K) :=
  (ratchetLoadState nvs contactIdx).map fun st =>
    { st with pq := pqNvsLoad nvs contactIdx st.pq }

/-- The only write of `ratchet_save_state`. -/
theorem mem_ratchetSaveState {idx : ℕ} {st : RatchetState K} {w : NvsWrite K}
    (h : w ∈ ratchetSaveState idx st) : w = (ratKey idx, .ratchet st.toRatchetClassical) := by
  rw [ratchetSaveState] at h
  split_ifs at h <;> simp at h
  exact h

/-- `pq_nvs_save` writes PQ keys. -/
theorem mem_pqNvsSave {idx : ℕ} {pq : PqKemState} {w : NvsWrite K} (h : w ∈ pqNvsSave idx pq) :
    ∃ field ∈ pqSuffixes, w.1 = pqKey idx field := by
  revert w
  change ∀ w ∈ pqNvsSave idx pq, ∃ field ∈ pqSuffixes, w.1 = pqKey idx field
  rw [pqNvsSave]
  split_ifs <;> simp [pqSuffixes]

/-- `pq_nvs_load` reads the PQ keys of its slot and nothing else. -/
theorem pqNvsLoad_congr {nvs nvs' : Nvs K} {idx : ℕ}
    (h : ∀ field ∈ pqSuffixes, nvs (pqKey idx field) = nvs' (pqKey idx field))
    (pq : PqKemState) : pqNvsLoad nvs idx pq = pqNvsLoad nvs' idx pq := by
  have hexists : ∀ field ∈ pqSuffixes,
      smpStorageExists nvs (pqKey idx field) = smpStorageExists nvs' (pqKey idx field) := by
    intro field hfield
    rw [smpStorageExists, smpStorageExists, h field hfield]
  have hbyte : ∀ field ∈ pqSuffixes, ∀ old,
      loadByte nvs (pqKey idx field) old = loadByte nvs' (pqKey idx field) old := by
    intro field hfield old
    rw [loadByte, loadByte, h field hfield]
  have harray : ∀ {n : ℕ}, ∀ field ∈ pqSuffixes, ∀ (old : Bytes n),
      loadArray nvs (pqKey idx field) old = loadArray nvs' (pqKey idx field) old := by
    intro n field hfield old
    rw [loadArray, loadArray, h field hfield]
  simp only [pqSuffixes, List.forall_mem_cons] at hexists hbyte harray
  simp only [pqNvsLoad, hexists, hbyte, harray]

/-- What a successful reload says about the store. -/
theorem ratchetReload_eq_some {nvs : Nvs K} {idx : ℕ} {st : RatchetState K}
    (h : ratchetReload nvs idx = some st) :
    idx < maxContacts ∧ nvs (ratKey idx) = some (.ratchet st.toRatchetClassical) ∧
      st.initialized = true ∧ st.pq = pqNvsLoad nvs idx .zero := by
  simp only [ratchetReload, ratchetLoadState] at h
  by_cases hidx : maxContacts ≤ idx
  · simp [hidx] at h
  · rw [if_neg hidx] at h
    cases hblob : nvs (ratKey idx) with
    | none => simp [hblob] at h
    | some blob =>
      cases blob with
      | ratchet loaded =>
        by_cases hinit : loaded.initialized = true
        · simp only [hblob, hinit, if_true, Option.map_some, Option.some.injEq] at h
          subst h
          exact ⟨Nat.not_le.mp hidx, rfl, hinit, rfl⟩
        · simp [hblob, hinit] at h
      | _ => simp [hblob] at h

/-- What a loaded session has in NVS. -/
theorem ratchetLoadState_eq_some {nvs : Nvs K} {idx : ℕ} {st : RatchetState K}
    (h : ratchetLoadState nvs idx = some st) :
    nvs (ratKey idx) = some (.ratchet st.toRatchetClassical) ∧ st.initialized = true := by
  have hreload : ratchetReload nvs idx = some { st with pq := pqNvsLoad nvs idx st.pq } := by
    rw [ratchetReload, h]
    rfl
  obtain ⟨-, hblob, hinit, -⟩ := ratchetReload_eq_some hreload
  exact ⟨hblob, hinit⟩

/-- Of a stored session, the keys and counters are read from one blob. -/
theorem ratchetLoadState_congr {nvs nvs' : Nvs K} {i : ℕ} (h : nvs' (ratKey i) = nvs (ratKey i)) :
    ratchetLoadState nvs' i = ratchetLoadState nvs i := by
  rw [ratchetLoadState, ratchetLoadState, h]

/-- A reload reads the session keys of its slot. -/
theorem ratchetReload_congr {nvs nvs' : Nvs K} {i : ℕ} (hrat : nvs' (ratKey i) = nvs (ratKey i))
    (hpq : ∀ field ∈ pqSuffixes, nvs' (pqKey i field) = nvs (pqKey i field)) :
    ratchetReload nvs' i = ratchetReload nvs i := by
  rw [ratchetReload, ratchetReload, ratchetLoadState_congr hrat]
  simp only [pqNvsLoad_congr hpq]

/-- The converse: a ratchet blob that is marked initialised is loaded with the PQ part. -/
theorem ratchetReload_of_blob {nvs : Nvs K} {idx : ℕ} {classical : RatchetClassical K}
    (hidx : idx < maxContacts) (hblob : nvs (ratKey idx) = some (.ratchet classical))
    (hinit : classical.initialized = true) :
    ratchetReload nvs idx =
      some { toRatchetClassical := classical, pq := pqNvsLoad nvs idx .zero } := by
  simp [ratchetReload, ratchetLoadState, Nat.not_le.mpr hidx, hblob, hinit]

end SimpleGo
