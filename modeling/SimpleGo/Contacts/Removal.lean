import SimpleGo.Contacts.Device
import SimpleGo.Crypto.Symbolic

/-!
# Removing a contact

A contact leaves its slot when the server has confirmed its deletion (`remove_contact`) or
when its invitation is aborted, which clears the record at once and leaves the NVS keys to
the app task. Both delete keys under names of their own making. A deletion is local when it
touches only names formed with its slot and no key that another slot's data is saved under;
the theorem says for which stores that is so.
-/

namespace SimpleGo

open Lib

variable {K : Type}

/-- The suffixes `remove_contact` deletes. -/
def removedPqSuffixes : List String := ["_act", "_st", "_opk", "_osk", "_ppk", "_ct", "_ss"]

/-- The keys `remove_contact` deletes, in order. -/
def removedKeys (index : ℕ) : List String :=
  ["rat_" ++ fmt02x index, "peer_" ++ fmt02x index, "hand_" ++ fmt02x index,
    "rq_" ++ fmt02x index] ++ removedPqSuffixes.map (pqKey index)

/-- The keys the cleanup of an aborted invitation deletes. -/
def abortedKeys (slot : ℕ) : List String :=
  ["ratchet_" ++ fmt02u slot, "queue_rcv_" ++ fmt02u slot, "queue_snd_" ++ fmt02u slot,
    "rq_" ++ fmt02u slot]

namespace ContactDevice

variable (dev : ContactDevice K)

/-- `remove_contact`; `confirmed` when the server answers `OK`. -/
def removeContact (P : Primitives K) (index : ℕ) (confirmed : Bool) (lands : ℕ → Bool) :
    ContactDevice K × Bool :=
  if ¬ (index < maxContacts ∧ (dev.contacts index).isActive) then (dev, false)
  else if !confirmed then (dev, false)
  else
    let cleared := { dev with
      contacts := Function.update dev.contacts index .zero
      nvs := dev.nvs.eraseAll (removedKeys index) }
    let wiped := { cleared.ratchetWipeSlot P index with
      replyQueues := Function.update dev.replyQueues index .zero
      numContacts := dev.numContacts - 1 }
    (wiped.saveContactsToNvs lands, true)

/-- `smp_abort_pending_contact` for the pending slot. -/
def abortPendingContact (slot : ℕ) : ContactDevice K :=
  { dev with
    contacts := Function.update dev.contacts slot { dev.contacts slot with active := 0 }
    numContacts := if dev.numContacts > 0 then dev.numContacts - 1 else dev.numContacts
    pendingDeleteSlot := some slot }

/-- The part of `app_process_deferred_work` that cleans up after an aborted invitation. -/
def abortCleanup (lands : ℕ → Bool) : ContactDevice K :=
  match dev.pendingDeleteSlot with
  | none => dev
  | some slot =>
    let taken := { dev with pendingDeleteSlot := none }
    if slot < maxContacts then
      { taken with nvs := dev.nvs.eraseAll (abortedKeys slot) }.saveContactsToNvs lands
    else taken

/-- The save that `s_contacts_dirty` asks for. -/
def saveDirtyContacts (lands : ℕ → Bool) : ContactDevice K :=
  if dev.contactsDirty then { dev with contactsDirty := false }.saveContactsToNvs lands else dev

/-- The save that `s_rq_save_pending` asks for. -/
def saveDeferredQueue (lands : Bool) : ContactDevice K :=
  match dev.rqSavePending with
  | none => dev
  | some slot => { dev with rqSavePending := none }.replyQueueSave slot lands

/-- `app_process_deferred_work` on the contact slots. -/
def processDeferredWork (lands : ℕ → Bool) (queueLands : Bool) : ContactDevice K :=
  ((dev.saveDirtyContacts lands).abortCleanup lands).saveDeferredQueue queueLands

/-- Wiping a ratchet leaves NVS. -/
theorem ratchetWipeSlot_nvs (P : Primitives K) (dev : ContactDevice K) (idx : ℕ) :
    (dev.ratchetWipeSlot P idx).nvs = dev.nvs := by
  rw [ratchetWipeSlot]
  split_ifs <;> rfl

/-- Wiping a ratchet leaves the table. -/
theorem ratchetWipeSlot_contacts (P : Primitives K) (dev : ContactDevice K) (idx : ℕ) :
    (dev.ratchetWipeSlot P idx).contacts = dev.contacts := by
  rw [ratchetWipeSlot]
  split_ifs <;> rfl

end ContactDevice

/-- The keys a slot's data is saved under. -/
def savedKeys (slot : ℕ) : List String :=
  [ratKey slot, peerKey slot, handKey slot, rqKey slot, cntKey slot] ++
    pqSuffixes.map (pqKey slot)

/-- Every name the firmware forms with a slot. -/
def slotNames (slot : ℕ) : List String := savedKeys slot ++ removedKeys slot ++ abortedKeys slot

/-- Only names of the slot change, and nothing that is saved for another slot. -/
def DeletionLocal (slot : ℕ) (before after : Nvs K) : Prop :=
  (∀ key, after key ≠ before key → key ∈ slotNames slot) ∧
    ∀ j < maxContacts, j ≠ slot → ∀ key ∈ savedKeys j, after key = before key

/-! ### Which names meet -/

/-- The first letters of a key. -/
def keyFamily (key : String) : List Char := key.toList.take 3

@[simp] theorem keyFamily_rat (d : String) : keyFamily ("rat_" ++ d) = ['r', 'a', 't'] := by
  simp [keyFamily]

@[simp] theorem keyFamily_ratKey (i : ℕ) : keyFamily (ratKey i) = ['r', 'a', 't'] := by
  simp [keyFamily, ratKey]

@[simp] theorem keyFamily_peerKey (i : ℕ) : keyFamily (peerKey i) = ['p', 'e', 'e'] := by
  simp [keyFamily, peerKey]

@[simp] theorem keyFamily_handKey (i : ℕ) : keyFamily (handKey i) = ['h', 'a', 'n'] := by
  simp [keyFamily, handKey]

@[simp] theorem keyFamily_rq (d : String) : keyFamily ("rq_" ++ d) = ['r', 'q', '_'] := by
  simp [keyFamily]

@[simp] theorem keyFamily_rqKey (i : ℕ) : keyFamily (rqKey i) = ['r', 'q', '_'] := by
  simp [keyFamily, rqKey]

@[simp] theorem keyFamily_cntKey (i : ℕ) : keyFamily (cntKey i) = ['c', 'n', 't'] := by
  simp [keyFamily, cntKey]

@[simp] theorem keyFamily_pqKey (i : ℕ) (f : String) : keyFamily (pqKey i f) = ['p', 'q', '_'] := by
  simp [keyFamily, pqKey]

@[simp] theorem keyFamily_ratchet (d : String) : keyFamily ("ratchet_" ++ d) = ['r', 'a', 't'] := by
  simp [keyFamily]

@[simp] theorem keyFamily_rcv (d : String) : keyFamily ("queue_rcv_" ++ d) = ['q', 'u', 'e'] := by
  simp [keyFamily]

@[simp] theorem keyFamily_snd (d : String) : keyFamily ("queue_snd_" ++ d) = ['q', 'u', 'e'] := by
  simp [keyFamily]

/-- Keys of different families differ. -/
theorem ne_of_keyFamily {a b : String} (h : keyFamily a ≠ keyFamily b) : a ≠ b :=
  fun hab => h (congrArg keyFamily hab)

/-- The records that are written for a contact. -/
theorem mem_savedKeys {key : String} {slot : ℕ} :
    key ∈ savedKeys slot ↔ key = ratKey slot ∨ key = peerKey slot ∨ key = handKey slot ∨
      key = rqKey slot ∨ key = cntKey slot ∨ ∃ f ∈ pqSuffixes, key = pqKey slot f := by
  simp [savedKeys, eq_comm]

/-- The records that a removal erases. -/
theorem mem_removedKeys {key : String} {slot : ℕ} :
    key ∈ removedKeys slot ↔ key = "rat_" ++ fmt02x slot ∨ key = peerKey slot ∨
      key = handKey slot ∨ key = rqKey slot ∨ ∃ f ∈ removedPqSuffixes, key = pqKey slot f := by
  simp [removedKeys, peerKey, handKey, rqKey, eq_comm]

/-- The records that an aborted connection erases. -/
theorem mem_abortedKeys {key : String} {slot : ℕ} :
    key ∈ abortedKeys slot ↔ key = "ratchet_" ++ fmt02u slot ∨ key = "queue_rcv_" ++ fmt02u slot ∨
      key = "queue_snd_" ++ fmt02u slot ∨ key = "rq_" ++ fmt02u slot := by
  simp [abortedKeys]

/-- The PQ keys of two slots are different. -/
theorem pqKey_slot_inj {i j : ℕ} (hi : i < 256) (hj : j < 256) {f g : String}
    (h : pqKey i f = pqKey j g) : i = j := by
  have hchars := congrArg String.toList h
  simp only [pqKey, String.toList_append] at hchars
  have hfmt : (fmt02x i).toList = (fmt02x j).toList := by
    have hlen : ("pq_".toList ++ (fmt02x i).toList).length =
        ("pq_".toList ++ (fmt02x j).toList).length := by
      simp [fmt02x]
    exact (List.append_inj (List.append_inj hchars hlen).1 rfl).2
  exact fmt02x_inj hi hj (String.toList_inj.mp hfmt)

/-- `remove_contact` deletes a key of another slot only as the ratchet of a slot whose decimal
number reads like its own hexadecimal one. -/
theorem mem_removedKeys_other {i j : ℕ} (hi : i < maxContacts) (hj : j < maxContacts)
    (hij : j ≠ i) {key : String} (hsaved : key ∈ savedKeys j) :
    key ∈ removedKeys i ↔ key = ratKey j ∧ fmt02x i = fmt02u j := by
  have hi' : i < 256 := Nat.lt_trans hi (by decide)
  have hj' : j < 256 := Nat.lt_trans hj (by decide)
  constructor
  · intro hremoved
    rw [mem_savedKeys] at hsaved
    -- Only names of one family can be equal.
    rcases mem_removedKeys.mp hremoved with rfl | rfl | rfl | rfl | ⟨f, -, rfl⟩ <;>
      rcases hsaved with h | h | h | h | h | ⟨g, -, h⟩ <;>
      have hfamily := congrArg keyFamily h <;> simp at hfamily
    · exact ⟨h, (String.append_right_inj _).mp h⟩
    · exact absurd (fmt02x_inj hj' hi' ((String.append_right_inj _).mp h).symm) hij
    · exact absurd (fmt02x_inj hj' hi' ((String.append_right_inj _).mp h).symm) hij
    · exact absurd (fmt02x_inj hj' hi' ((String.append_right_inj _).mp h).symm) hij
    · exact absurd (pqKey_slot_inj hj' hi' h.symm) hij
  · rintro ⟨rfl, hfmt⟩
    rw [mem_removedKeys, hfmt]
    exact Or.inl rfl

/-- The abort cleanup deletes a key of another slot only as the reply queue of a slot whose
hexadecimal number reads like its own decimal one. -/
theorem mem_abortedKeys_other {i j : ℕ} {key : String} (hsaved : key ∈ savedKeys j)
    (hrat : ∀ d, ratKey j ≠ "ratchet_" ++ d) :
    key ∈ abortedKeys i ↔ key = rqKey j ∧ fmt02x j = fmt02u i := by
  constructor
  · intro haborted
    rw [mem_savedKeys] at hsaved
    rcases mem_abortedKeys.mp haborted with rfl | rfl | rfl | rfl <;>
      rcases hsaved with h | h | h | h | h | ⟨g, -, h⟩ <;>
      have hfamily := congrArg keyFamily h <;> simp at hfamily
    · exact absurd h.symm (hrat _)
    · exact ⟨h, ((String.append_right_inj _).mp h).symm⟩
  · rintro ⟨rfl, hfmt⟩
    rw [mem_abortedKeys, ← hfmt]
    exact Or.inr (Or.inr (Or.inr rfl))

/-- A ratchet key is not one of the old ratchet names. -/
theorem ratKey_ne_ratchet (j : ℕ) (d : String) : ratKey j ≠ "ratchet_" ++ d := by
  intro h
  have hchars := congrArg String.toList h
  simp [ratKey] at hchars

/-- The contact keys of the slots differ. -/
theorem cntKey_injOn : ∀ a < maxContacts, ∀ b < maxContacts, cntKey a = cntKey b → a = b :=
  fun _ ha _ hb => cntKey_inj (Nat.lt_trans ha (by decide)) (Nat.lt_trans hb (by decide))

/-- A contact key belongs to its own slot only. -/
theorem cntKey_not_mem_slotNames {i j : ℕ} (hi : i < maxContacts) (hj : j < maxContacts)
    (hij : j ≠ i) : cntKey j ∉ slotNames i := by
  intro h
  rw [slotNames, List.mem_append, List.mem_append, mem_savedKeys, mem_removedKeys,
    mem_abortedKeys] at h
  rcases h with ((h | h | h | h | h | ⟨g, -, h⟩) | (h | h | h | h | ⟨g, -, h⟩)) |
    (h | h | h | h) <;> have hfamily := congrArg keyFamily h <;> simp at hfamily
  exact hij (cntKey_injOn j hj i hi h)

/-- The contact record NVS should hold for a slot. -/
def recordBlob (contacts : ℕ → Contact) (j : ℕ) : Option (Blob K) :=
  if (contacts j).isActive then some (.contact (contacts j)) else none

/-- Deleting names of a slot and saving the contact records is local exactly when none of the
names is another slot's key with an entry and the other records were saved already. -/
theorem deletionLocal_iff {i : ℕ} {erased : List String}
    (hnames : ∀ key ∈ erased, key ∈ slotNames i) (hcnt : ∀ j, cntKey j ∉ erased) (nvs : Nvs K)
    (contacts : ℕ → Contact) :
    DeletionLocal i nvs
        ((nvs.eraseAll erased).setFamily cntKey (fun j => some (recordBlob contacts j))
          maxContacts) ↔
      (∀ j < maxContacts, j ≠ i → nvs (cntKey j) = recordBlob contacts j) ∧
        ∀ j < maxContacts, j ≠ i → ∀ key ∈ savedKeys j, key ∈ erased → nvs key = none := by
  have hrecord : ∀ j < maxContacts, (nvs.eraseAll erased).setFamily cntKey
      (fun j => some (recordBlob contacts j)) maxContacts (cntKey j) = recordBlob contacts j :=
    fun j hj => Store.setFamily_key _ _ _ cntKey_injOn hj
  have hother : ∀ key, (∀ j < maxContacts, cntKey j ≠ key) → (nvs.eraseAll erased).setFamily cntKey
      (fun j => some (recordBlob contacts j)) maxContacts key =
        if key ∈ erased then none else nvs key := fun key hkey => by
    rw [Store.setFamily_of_ne _ _ _ hkey, Store.eraseAll_apply]
  constructor
  · rintro ⟨-, hkeep⟩
    have hrecords : ∀ j < maxContacts, j ≠ i → nvs (cntKey j) = recordBlob contacts j := by
      intro j hj hij
      rw [← hrecord j hj, hkeep j hj hij (cntKey j) (by simp [savedKeys])]
    refine ⟨hrecords, ?_⟩
    intro j hj hij key hsaved herased
    have hkey : ∀ k < maxContacts, cntKey k ≠ key := by
      rintro k - rfl
      exact hcnt k herased
    rw [← hkeep j hj hij key hsaved, hother key hkey, if_pos herased]
  · rintro ⟨hrecords, hempty⟩
    refine ⟨?_, ?_⟩
    · intro key hchanged
      by_cases hkey : ∃ k < maxContacts, cntKey k = key
      · obtain ⟨k, hk, rfl⟩ := hkey
        by_cases hik : k = i
        · simp [slotNames, savedKeys, hik]
        · exact absurd ((hrecord k hk).trans (hrecords k hk hik).symm) hchanged
      · rw [hother key fun k hk he => hkey ⟨k, hk, he⟩] at hchanged
        by_cases herased : key ∈ erased
        · exact hnames key herased
        · rw [if_neg herased] at hchanged
          exact absurd rfl hchanged
    · intro j hj hij key hsaved
      by_cases hkey : ∃ k < maxContacts, cntKey k = key
      · obtain ⟨k, hk, rfl⟩ := hkey
        have hkj : k = j := by
          by_contra hne
          exact cntKey_not_mem_slotNames hj hk hne
            (List.mem_append_left _ (List.mem_append_left _ hsaved))
        subst hkj
        rw [hrecord k hk, hrecords k hk hij]
      · rw [hother key fun k hk he => hkey ⟨k, hk, he⟩]
        by_cases herased : key ∈ erased
        · rw [if_pos herased, hempty j hj hij key hsaved herased]
        · rw [if_neg herased]

/-! ### When a deletion is local -/

/-- The two ways a slot is deleted. -/
inductive SlotDeletion where
  | removal
  | abortCleanup

/-- A deletion that goes through: the server confirms it and NVS accepts every call. -/
def ContactDevice.deleteSlot (P : Primitives K) (dev : ContactDevice K) (i : ℕ) :
    SlotDeletion → ContactDevice K
  | .removal => (dev.removeContact P i true fun _ => true).1
  | .abortCleanup => { dev with pendingDeleteSlot := some i }.abortCleanup fun _ => true

/-- The records of the other slots are in NVS as they are in RAM. -/
def OthersSaved (dev : ContactDevice K) (i : ℕ) : Prop :=
  ∀ j < maxContacts, j ≠ i → dev.nvs (cntKey j) = recordBlob dev.contacts j

/-- No other slot has an entry under a name the deletion forms. -/
def DeletionMisses (dev : ContactDevice K) (i : ℕ) : SlotDeletion → Prop
  | .removal => (dev.contacts i).isActive = true →
      (16 ≤ i → i % 16 < 10 → dev.nvs (ratKey (10 * (i / 16) + i % 16)) = none) ∧
        OthersSaved dev i
  | .abortCleanup =>
      (10 ≤ i → i < 80 → dev.nvs (rqKey (16 * (i / 10) + i % 10)) = none) ∧ OthersSaved dev i

/-- Saving all contact records sets the family of their keys. -/
theorem saveContactsToNvs_nvs (dev : ContactDevice K) :
    (dev.saveContactsToNvs fun _ => true).nvs =
      dev.nvs.setFamily cntKey (fun j => some (recordBlob dev.contacts j)) maxContacts := by
  simp only [ContactDevice.saveContactsToNvs, if_true]
  rfl

/-- No key of a record is deleted by name. -/
theorem cntKey_not_mem_removedKeys (i j : ℕ) : cntKey j ∉ removedKeys i := by
  intro h
  rcases mem_removedKeys.mp h with h | h | h | h | ⟨f, -, h⟩ <;>
    have hfamily := congrArg keyFamily h <;> simp at hfamily

/-- No contact record is among them. -/
theorem cntKey_not_mem_abortedKeys (i j : ℕ) : cntKey j ∉ abortedKeys i := by
  intro h
  rcases mem_abortedKeys.mp h with h | h | h | h <;>
    have hfamily := congrArg keyFamily h <;> simp at hfamily

/-- The names `remove_contact` deletes meet another slot's entries only in one ratchet key. -/
theorem removedKeys_miss {i : ℕ} (hi : i < maxContacts) (nvs : Nvs K) :
    (∀ j < maxContacts, j ≠ i → ∀ key ∈ savedKeys j, key ∈ removedKeys i → nvs key = none) ↔
      (16 ≤ i → i % 16 < 10 → nvs (ratKey (10 * (i / 16) + i % 16)) = none) := by
  have hi' : i < 128 := hi
  constructor
  · intro h hlow hdigit
    have hj : 10 * (i / 16) + i % 16 < maxContacts := by
      rw [maxContacts]
      omega
    have hij : 10 * (i / 16) + i % 16 ≠ i := by omega
    have hsaved : ratKey (10 * (i / 16) + i % 16) ∈ savedKeys (10 * (i / 16) + i % 16) := by
      simp [savedKeys]
    exact h _ hj hij _ hsaved ((mem_removedKeys_other hi hj hij hsaved).mpr
      ⟨rfl, (fmt02x_eq_fmt02u (by omega)).mpr ⟨hdigit, rfl⟩⟩)
  · intro h j hj hij key hsaved hremoved
    obtain ⟨rfl, hfmt⟩ := (mem_removedKeys_other hi hj hij hsaved).mp hremoved
    obtain ⟨hdigit, rfl⟩ := (fmt02x_eq_fmt02u (by omega)).mp hfmt
    exact h (by omega) hdigit

/-- The names the abort cleanup deletes meet another slot's entries only in one reply-queue
key. -/
theorem abortedKeys_miss {i : ℕ} (hi : i < maxContacts) (nvs : Nvs K) :
    (∀ j < maxContacts, j ≠ i → ∀ key ∈ savedKeys j, key ∈ abortedKeys i → nvs key = none) ↔
      (10 ≤ i → i < 80 → nvs (rqKey (16 * (i / 10) + i % 10)) = none) := by
  have hi' : i < 128 := hi
  constructor
  · intro h hlow hhigh
    have hj : 16 * (i / 10) + i % 10 < maxContacts := by
      rw [maxContacts]
      omega
    have hsaved : rqKey (16 * (i / 10) + i % 10) ∈ savedKeys (16 * (i / 10) + i % 10) := by
      simp [savedKeys]
    have hfmt : fmt02x (16 * (i / 10) + i % 10) = fmt02u i :=
      (fmt02x_eq_fmt02u (by omega)).mpr ⟨by omega, by omega⟩
    exact h _ hj (by omega) _ hsaved
      ((mem_abortedKeys_other hsaved (ratKey_ne_ratchet _)).mpr ⟨rfl, hfmt⟩)
  · intro h j hj hij key hsaved haborted
    obtain ⟨rfl, hfmt⟩ := (mem_abortedKeys_other hsaved (ratKey_ne_ratchet _)).mp haborted
    have hj' : j < 128 := hj
    obtain ⟨hdigit, hval⟩ := (fmt02x_eq_fmt02u (by omega)).mp hfmt
    have hback : 16 * (i / 10) + i % 10 = j := by omega
    rw [← hback]
    exact h (by omega) (by omega)

/-- NVS after a confirmed removal. -/
theorem removeContact_nvs (P : Primitives K) (dev : ContactDevice K) {i : ℕ}
    (hi : i < maxContacts) (hactive : (dev.contacts i).isActive = true) :
    (dev.removeContact P i true fun _ => true).1.nvs =
      (dev.nvs.eraseAll (removedKeys i)).setFamily cntKey
        (fun j => some (recordBlob (Function.update dev.contacts i .zero) j)) maxContacts := by
  rw [ContactDevice.removeContact, if_neg (not_not.mpr ⟨hi, hactive⟩)]
  simp only [Bool.not_true, Bool.false_eq_true, if_false]
  rw [saveContactsToNvs_nvs]
  simp only [ContactDevice.ratchetWipeSlot_nvs, ContactDevice.ratchetWipeSlot_contacts]

/-- NVS after the cleanup of an aborted invitation. -/
theorem abortCleanup_nvs (dev : ContactDevice K) {i : ℕ} (hi : i < maxContacts)
    (hpending : dev.pendingDeleteSlot = some i) :
    (dev.abortCleanup fun _ => true).nvs =
      (dev.nvs.eraseAll (abortedKeys i)).setFamily cntKey
        (fun j => some (recordBlob dev.contacts j)) maxContacts := by
  simp only [ContactDevice.abortCleanup, hpending, hi, if_true]
  exact saveContactsToNvs_nvs _

/-- Deleting a slot is local exactly when no other slot's key reads like a name it forms, and
the other contact records were saved. -/
theorem deleteSlot_local_iff (P : Primitives K) (dev : ContactDevice K) {i : ℕ}
    (hi : i < maxContacts) (kind : SlotDeletion) :
    DeletionLocal i dev.nvs (dev.deleteSlot P i kind).nvs ↔ DeletionMisses dev i kind := by
  cases kind with
  | removal =>
    by_cases hactive : (dev.contacts i).isActive = true
    · have hothers : (∀ j < maxContacts, j ≠ i →
          dev.nvs (cntKey j) = recordBlob (Function.update dev.contacts i .zero) j) ↔
          OthersSaved dev i := by
        refine forall_congr' fun j => forall_congr' fun _ => forall_congr' fun hij => ?_
        rw [recordBlob, recordBlob, Function.update_of_ne hij]
      have hnames : ∀ key ∈ removedKeys i, key ∈ slotNames i := fun key hkey =>
        List.mem_append_left _ (List.mem_append_right _ hkey)
      change DeletionLocal i dev.nvs (dev.removeContact P i true fun _ => true).1.nvs ↔
        ((dev.contacts i).isActive = true → _ ∧ OthersSaved dev i)
      rw [removeContact_nvs P dev hi hactive,
        deletionLocal_iff hnames (cntKey_not_mem_removedKeys i), removedKeys_miss hi, hothers]
      constructor
      · rintro ⟨hsaved, hmiss⟩ -
        exact ⟨hmiss, hsaved⟩
      · intro h
        exact ⟨(h hactive).2, (h hactive).1⟩
    · have hsame : (dev.removeContact P i true fun _ => true).1 = dev := by
        rw [ContactDevice.removeContact, if_pos fun h => hactive h.2]
      change DeletionLocal i dev.nvs (dev.removeContact P i true fun _ => true).1.nvs ↔
        ((dev.contacts i).isActive = true → _)
      rw [hsame]
      exact ⟨fun _ h => absurd h hactive, fun _ =>
        ⟨fun _ hne => absurd rfl hne, fun _ _ _ _ _ => rfl⟩⟩
  | abortCleanup =>
    have hnames : ∀ key ∈ abortedKeys i, key ∈ slotNames i := fun key hkey =>
      List.mem_append_right _ hkey
    change DeletionLocal i dev.nvs
      (({ dev with pendingDeleteSlot := some i } : ContactDevice K).abortCleanup fun _ => true).nvs ↔
        _ ∧ OthersSaved dev i
    rw [abortCleanup_nvs _ hi rfl,
      deletionLocal_iff hnames (cntKey_not_mem_abortedKeys i), abortedKeys_miss hi]
    exact and_comm

/-- After a local deletion every other slot is restored as before. -/
theorem DeletionLocal.restores {i j : ℕ} {before after : Nvs K} (h : DeletionLocal i before after)
    (hj : j < maxContacts) (hij : j ≠ i) :
    ratchetReload after j = ratchetReload before j ∧
      ContactDevice.peerLoadState after j = ContactDevice.peerLoadState before j ∧
      ContactDevice.storedHandshake after j = ContactDevice.storedHandshake before j ∧
      after (rqKey j) = before (rqKey j) := by
  have hkey : ∀ key ∈ savedKeys j, after key = before key := h.2 j hj hij
  have hpq : ∀ field ∈ pqSuffixes, after (pqKey j field) = before (pqKey j field) := by
    intro field hfield
    exact hkey _ (mem_savedKeys.mpr (Or.inr (Or.inr (Or.inr (Or.inr (Or.inr
      ⟨field, hfield, rfl⟩))))))
  refine ⟨ratchetReload_congr (hkey _ (by simp [savedKeys])) hpq, ?_, ?_,
    hkey _ (by simp [savedKeys])⟩
  · rw [ContactDevice.peerLoadState, ContactDevice.peerLoadState,
      hkey (peerKey j) (by simp [savedKeys])]
  · rw [ContactDevice.storedHandshake, ContactDevice.storedHandshake,
      hkey (handKey j) (by simp [savedKeys])]

/-- A device whose contacts in slots 10 and 16 are saved, with the ratchet of the one and the
reply queue of the other. -/
def crowdedDevice : ContactDevice SymKey :=
  let contacts := fun j => if j = 10 ∨ j = 16 then { Contact.zero with active := 1 } else .zero
  { ContactDevice.blank symbolic with
    contacts := contacts
    numContacts := 2
    nvs := Store.put (Store.put
      (Store.setFamily (fun _ => none) cntKey (fun j => some (recordBlob contacts j)) maxContacts)
      (ratKey 10) (.ratchet (RatchetState.zero symbolic).toRatchetClassical))
      (rqKey 16) (.replyQueue { ReplyQueue.zero with valid := true }) }

/-- Removing the contact of slot 16 deletes the ratchet of slot 10, and aborting an invitation
in slot 10 deletes the reply queue of slot 16. -/
theorem deleteSlot_not_local :
    ¬ DeletionLocal 16 crowdedDevice.nvs (crowdedDevice.deleteSlot symbolic 16 .removal).nvs ∧
      ¬ DeletionLocal 10 crowdedDevice.nvs
        (crowdedDevice.deleteSlot symbolic 10 .abortCleanup).nvs := by
  have hrat : crowdedDevice.nvs (ratKey 10) ≠ none := by
    have hne : ratKey 10 ≠ rqKey 16 := ne_of_keyFamily (by simp)
    simp [crowdedDevice, Store.put_of_ne _ _ hne]
  have hrq : crowdedDevice.nvs (rqKey 16) ≠ none := by
    simp [crowdedDevice]
  constructor
  · intro hlocal
    have hnames : ∀ key ∈ removedKeys 16, key ∈ slotNames 16 := fun key hkey =>
      List.mem_append_left _ (List.mem_append_right _ hkey)
    change DeletionLocal 16 crowdedDevice.nvs
      (crowdedDevice.removeContact symbolic 16 true fun _ => true).1.nvs at hlocal
    rw [removeContact_nvs symbolic crowdedDevice (by decide) rfl,
      deletionLocal_iff hnames (cntKey_not_mem_removedKeys 16)] at hlocal
    have hnone := (removedKeys_miss (by decide) _).mp hlocal.2 (by decide) (by decide)
    rw [show 10 * (16 / 16) + 16 % 16 = 10 from rfl] at hnone
    exact hrat hnone
  · intro hlocal
    have hnames : ∀ key ∈ abortedKeys 10, key ∈ slotNames 10 := fun key hkey =>
      List.mem_append_right _ hkey
    change DeletionLocal 10 crowdedDevice.nvs (({ crowdedDevice with
      pendingDeleteSlot := some 10 } : ContactDevice SymKey).abortCleanup fun _ => true).nvs at hlocal
    rw [abortCleanup_nvs _ (by decide) rfl,
      deletionLocal_iff hnames (cntKey_not_mem_abortedKeys 10)] at hlocal
    have hnone := (abortedKeys_miss (by decide) _).mp hlocal.2 (by decide) (by decide)
    rw [show 16 * (10 / 10) + 10 % 10 = 16 from rfl] at hnone
    exact hrq hnone

/-- Its contacts are stored as they are in RAM. -/
theorem crowdedDevice_saved (i : ℕ) : OthersSaved crowdedDevice i := by
  intro j hj _
  have hrat : cntKey j ≠ ratKey 10 := ne_of_keyFamily (by simp)
  have hrq : cntKey j ≠ rqKey 16 := ne_of_keyFamily (by simp)
  simp only [crowdedDevice]
  rw [Store.put_of_ne _ _ hrq, Store.put_of_ne _ _ hrat,
    Store.setFamily_key _ _ _ cntKey_injOn hj]
  rfl

/-- Removing the contact of slot 10 leaves the reply queue and the contact of slot 16, and the
cleanup of slot 3 leaves everything. -/
theorem deleteSlot_local_crowded :
    DeletionLocal 10 crowdedDevice.nvs (crowdedDevice.deleteSlot symbolic 10 .removal).nvs ∧
      DeletionLocal 3 crowdedDevice.nvs
        (crowdedDevice.deleteSlot symbolic 3 .abortCleanup).nvs :=
  ⟨(deleteSlot_local_iff symbolic crowdedDevice (by decide) .removal).mpr fun _ =>
      ⟨fun h => absurd h (by decide), crowdedDevice_saved 10⟩,
    (deleteSlot_local_iff symbolic crowdedDevice (by decide) .abortCleanup).mpr
      ⟨fun h => absurd h (by decide), crowdedDevice_saved 3⟩⟩

end SimpleGo
