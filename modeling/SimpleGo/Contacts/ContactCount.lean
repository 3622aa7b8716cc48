import Mathlib.Data.List.GetD
import Mathlib.Data.Nat.Basic
import SimpleGo.Contacts.DeferredWork
import SimpleGo.Lib.Buffers
import SimpleGo.Lib.Runs

/-!
# The number of contacts

The number of contacts is kept beside the table. Loading a table counts, a deletion from the
contact list counts again, and the other functions add or subtract one. Here a load reads NVS as
bytes: a blob shorter than a record fills a prefix of the slot's memory, and the table of earlier
versions is one blob under a key of its own. An aborted invitation subtracts one for the slot it
remembers, which may have lost its contact meanwhile.
-/

namespace SimpleGo

open Lib

variable {K : Type}

/-! ### Records in memory -/

/-- `sizeof(contact_t)`. -/
def contactSize : ℕ := 276

namespace Contact

/-- The memory of a record. -/
def encode (c : Contact) : List UInt8 :=
  c.name.toList ++ (c.rcvAuthSecret.toList ++ (c.rcvAuthPublic.toList ++ (c.rcvDhSecret.toList ++
    (c.rcvDhPublic.toList ++ (c.recipientId.toList ++ (c.recipientIdLen :: (c.senderId.toList ++
      (c.senderIdLen :: (c.srvDhPublic.toList ++ [c.haveSrvDh, c.active])))))))))

/-- A record in memory that starts with some bytes and is zero behind them. -/
def decode (mem : List UInt8) : Contact where
  name := bytesAt mem 0 32
  rcvAuthSecret := bytesAt mem 32 64
  rcvAuthPublic := bytesAt mem 96 32
  rcvDhSecret := bytesAt mem 128 32
  rcvDhPublic := bytesAt mem 160 32
  recipientId := bytesAt mem 192 24
  recipientIdLen := mem.getD 216 0
  senderId := bytesAt mem 217 24
  senderIdLen := mem.getD 241 0
  srvDhPublic := bytesAt mem 242 32
  haveSrvDh := mem.getD 274 0
  active := mem.getD 275 0

/-- The memory of a record has its size. -/
@[simp] theorem encode_length (c : Contact) : c.encode.length = contactSize := by
  simp [encode, contactSize]

/-- A record in memory, whatever follows it, is the record. -/
theorem decode_encode (c : Contact) (rest : List UInt8) : decode (c.encode ++ rest) = c := by
  simp [decode, encode, bytesAt_append_of_le, bytesAt_cons, List.getElem?_append_right]

end Contact

/-! ### Loading from bytes -/

/-- NVS as bytes. -/
abbrev RawNvs := Store String (List UInt8)

/-- `nvs_get_blob` into a buffer: a blob that does not fit is an error, and writes nothing. -/
def nvsGetBlob (nvs : RawNvs) (key : String) (size : ℕ) : Option (List UInt8) :=
  (nvs key).filter fun blob => blob.length ≤ size

/-- Which calls of a load succeed: the namespace is opened, the buffer for an old table is
allocated, and the records of that table are saved. -/
structure LoadCalls where
  opens : Bool
  allocates : Bool
  lands : ℕ → Bool

/-- The slot's memory after its blob has been read into it. -/
def loadedContact (nvs : RawNvs) (i : ℕ) : Contact :=
  if i < maxContacts then .decode ((nvsGetBlob nvs (cntKey i) contactSize).getD []) else .zero

/-- The blob of a slot is counted: it is a whole record, and active. -/
def countsContact (nvs : RawNvs) (i : ℕ) : Bool :=
  match nvsGetBlob nvs (cntKey i) contactSize with
  | some blob => decide (blob.length = contactSize) && (loadedContact nvs i).isActive
  | none => false

/-- The table of an earlier version: a count and ten records. -/
def legacyTable (nvs : RawNvs) : Option (List UInt8) :=
  (nvsGetBlob nvs "contacts" (1 + 10 * contactSize)).filter fun blob =>
    decide (blob.length = 1 + 10 * contactSize) && decide (0 < blob.getD 0 0) &&
      decide (blob.getD 0 0 ≤ 10)

/-- A record of that table. -/
def legacyContact (table : List UInt8) (i : ℕ) : Contact :=
  .decode (table.drop (1 + contactSize * i))

namespace ContactDevice

/-- `load_contacts_from_nvs`. -/
def loadContactsFromBlobs (dev : ContactDevice K) (nvs : RawNvs) (calls : LoadCalls) :
    ContactDevice K × Bool :=
  if !calls.opens then ({ dev with contacts := fun _ => .zero, numContacts := 0 }, false)
  else
    let contacts := loadedContact nvs
    let numContacts := UInt8.ofNat ((List.range maxContacts).countP (countsContact nvs))
    if (List.range maxContacts).any (countsContact nvs) then
      ({ dev with contacts := contacts, numContacts := numContacts }, true)
    else
      match if calls.allocates then legacyTable nvs else none with
      | none => ({ dev with contacts := contacts, numContacts := numContacts }, false)
      | some table =>
        let oldCount := (table.getD 0 0).toNat
        ({ dev with
            contacts := fun i => if i < oldCount then legacyContact table i else contacts i
            numContacts := numContacts + UInt8.ofNat
              ((List.range oldCount).countP fun i => (legacyContact table i).isActive)
          }.saveContactsToNvs calls.lands, true)

/-- `on_popup_delete` of the contact list. -/
def popupDelete (P : Primitives K) (dev : ContactDevice K) (idx : ℕ) (lands : ℕ → Bool) :
    ContactDevice K :=
  if maxContacts ≤ idx then dev
  else
    let cleared := { dev with
      contacts := Function.update dev.contacts idx .zero
      nvs := dev.nvs.eraseAll (removedKeys idx) }
    let wiped := { cleared.ratchetWipeSlot P idx with
      replyQueues := Function.update dev.replyQueues idx .zero }
    { wiped with numContacts := countActive wiped.contacts maxContacts }.saveContactsToNvs lands

end ContactDevice

/-! ### Runs -/

/-- What changes the table of contacts, and the other steps of the tasks around it. -/
inductive CountStep where
  /-- `load_contacts_from_nvs`, from any bytes. -/
  | load (nvs : RawNvs) (calls : LoadCalls)
  /-- `add_contact` outside the network task. -/
  | add (keys : ContactDevice.ContactKeys) (ids : Option ContactDevice.QueueIds)
      (deferred : Bool) (lands : ℕ → Bool)
  | remove (index : ℕ) (confirmed : Bool) (lands : ℕ → Bool)
  | popupDelete (idx : ℕ) (lands : ℕ → Bool)
  | clearAll
  /-- An invitation made by the network task or aborted, and the work around it. -/
  | invite (a : InviteStep)
  | restart

namespace InviteTasks

/-- `smp_clear_42d`. -/
def clear42d (s : InviteTasks K) (slot : ℕ) : InviteTasks K :=
  { s with
    done42d := Function.update s.done42d slot false
    scannedNotified := Function.update s.scannedNotified slot false }

/-- The tasks after a step. -/
def countStep (P : Primitives K) (s : InviteTasks K) : CountStep → InviteTasks K
  | .load nvs calls => { s with dev := (s.dev.loadContactsFromBlobs nvs calls).1 }
  | .add keys ids deferred lands => { s with dev := (s.dev.addContact keys ids deferred lands).1 }
  | .remove index confirmed lands =>
    let (dev, removed) := s.dev.removeContact P index confirmed lands
    if removed then { s with dev := dev }.clear42d index else { s with dev := dev }
  | .popupDelete idx lands =>
    if maxContacts ≤ idx then s
    else { s with dev := s.dev.popupDelete P idx lands }.clear42d idx
  | .clearAll => { s with dev := s.dev.clearAllContacts }
  | .invite a => s.step a
  | .restart => start (s.dev.resetRam P)

end InviteTasks

/-- The number of slots whose active flag is set. -/
def activeCount (contacts : ℕ → Contact) : ℕ :=
  (List.range maxContacts).countP fun i => (contacts i).isActive

/-- The number of contacts is the number of active slots. -/
def ContactDevice.CountExact (dev : ContactDevice K) : Prop :=
  dev.numContacts.toNat = activeCount dev.contacts

instance (dev : ContactDevice K) : Decidable dev.CountExact :=
  inferInstanceAs (Decidable (_ = _))

/-- When a step keeps the number right: an invitation is aborted while its slot still has its
contact, or while there are no contacts at all. -/
def CountStep.KeepsCount (s : InviteTasks K) : CountStep → Prop
  | .invite .abort => ∀ slot ∈ s.pendingContactSlot,
      (s.dev.contacts slot).isActive = true ∨ s.dev.numContacts = 0
  | _ => True

/-! ### Counting slots -/

/-- Counting a range in which one value is changed. -/
theorem countP_range_update {n i : ℕ} (hi : i < n) (f : ℕ → Bool) (b : Bool) :
    (List.range n).countP (Function.update f i b) + (f i).toNat =
      (List.range n).countP f + b.toNat := by
  induction n with
  | zero => exact absurd hi (Nat.not_lt_zero i)
  | succ n ih =>
    rw [List.range_succ, List.countP_append, List.countP_append, List.countP_singleton,
      List.countP_singleton]
    rcases Nat.lt_or_eq_of_le (Nat.le_of_lt_succ hi) with hlt | rfl
    · have hlast : Function.update f i b n = f n := Function.update_of_ne (Nat.ne_of_gt hlt) ..
      rw [hlast]
      have hfront := ih hlt
      omega
    · have hfront : (List.range i).countP (Function.update f i b) = (List.range i).countP f := by
        refine List.countP_congr fun j hj => ?_
        rw [Function.update_of_ne (Nat.ne_of_lt (List.mem_range.mp hj))]
      rw [hfront, Function.update_self]
      cases b <;> cases f i <;> simp

/-- Counting a range behind whose front nothing is counted. -/
theorem countP_range_of_le {n m : ℕ} (hle : n ≤ m) {f : ℕ → Bool}
    (hrest : ∀ i < m, n ≤ i → f i = false) :
    (List.range m).countP f = (List.range n).countP f := by
  obtain ⟨k, rfl⟩ := Nat.exists_eq_add_of_le hle
  have hzero : ((List.range k).map (n + ·)).countP f = 0 := by
    rw [List.countP_eq_zero]
    intro j hj
    obtain ⟨i, hi, rfl⟩ := List.mem_map.mp hj
    rw [hrest (n + i) (Nat.add_lt_add_left (List.mem_range.mp hi) n) (Nat.le_add_right n i)]
    exact Bool.false_ne_true
  rw [List.range_add, List.countP_append, hzero, Nat.add_zero]

/-- There are at most 128 active slots. -/
theorem activeCount_le (contacts : ℕ → Contact) : activeCount contacts ≤ maxContacts := by
  have hle := List.countP_le_length (p := fun i => (contacts i).isActive)
    (l := List.range maxContacts)
  rwa [List.length_range] at hle

/-- Changing one slot changes the number by what the slot was and is. -/
theorem activeCount_update (contacts : ℕ → Contact) {i : ℕ} (hi : i < maxContacts) (c : Contact) :
    activeCount (Function.update contacts i c) + (contacts i).isActive.toNat =
      activeCount contacts + c.isActive.toNat := by
  have hupdate : (fun j => (Function.update contacts i c j).isActive) =
      Function.update (fun j => (contacts j).isActive) i c.isActive := by
    funext j
    by_cases hj : j = i
    · rw [hj, Function.update_self, Function.update_self]
    · rw [Function.update_of_ne hj, Function.update_of_ne hj]
  rw [activeCount, hupdate]
  exact countP_range_update hi _ _

/-- An active slot is counted. -/
theorem activeCount_pos {contacts : ℕ → Contact} {i : ℕ} (hi : i < maxContacts)
    (hactive : (contacts i).isActive = true) : 0 < activeCount contacts :=
  List.countP_pos_iff.mpr ⟨i, List.mem_range.mpr hi, hactive⟩

/-- The table counted anew. -/
theorem countActive_toNat (contacts : ℕ → Contact) :
    (ContactDevice.countActive contacts maxContacts).toNat = activeCount contacts :=
  UInt8.toNat_ofNat_of_lt' (lt_of_le_of_lt (activeCount_le contacts) (by decide))

/-- Without active slots the number is zero. -/
theorem activeCount_zero : activeCount (fun _ => Contact.zero) = 0 := by
  simp [activeCount]

/-! ### One step -/

/-- A device whose table and number are the same is exact as well. -/
theorem ContactDevice.CountExact.of_same {dev dev' : ContactDevice K} (h : dev.CountExact)
    (hcontacts : dev'.contacts = dev.contacts) (hnum : dev'.numContacts = dev.numContacts) :
    dev'.CountExact := by
  rw [CountExact, hcontacts, hnum]
  exact h

/-- The free slot is one of the table, and free. -/
theorem ContactDevice.freeSlot_eq_some {dev : ContactDevice K} {slot : ℕ}
    (h : dev.freeSlot = some slot) :
    slot < maxContacts ∧ (dev.contacts slot).isActive = false := by
  obtain ⟨hfree, hmem⟩ := And.intro (List.find?_some h) (List.mem_of_find?_eq_some h)
  exact ⟨List.mem_range.mp hmem, by simpa using hfree⟩

/-- A created contact is counted; one that is not created is not. -/
theorem ContactDevice.CountExact.addContact {dev : ContactDevice K} (h : dev.CountExact)
    (keys : ContactKeys) (ids : Option QueueIds) (deferred : Bool) (lands : ℕ → Bool) :
    (dev.addContact keys ids deferred lands).1.CountExact := by
  rw [ContactDevice.addContact]
  cases hslot : dev.freeSlot with
  | none => exact h
  | some slot =>
    obtain ⟨hlt, hfree⟩ := freeSlot_eq_some hslot
    cases ids with
    | none =>
      have hcount := activeCount_update dev.contacts hlt (draftContact keys)
      have hdraft : (draftContact keys).isActive = false := rfl
      rw [hfree, hdraft] at hcount
      exact h.trans hcount.symm
    | some ids =>
      have hcount := activeCount_update dev.contacts hlt (createdContact keys ids)
      have hcreated : (createdContact keys ids).isActive = true := rfl
      rw [hfree, hcreated] at hcount
      simp only [Bool.toNat_false, Bool.toNat_true, Nat.add_zero] at hcount
      have hle := activeCount_le (Function.update dev.contacts slot (createdContact keys ids))
      have hadded : (dev.numContacts + 1).toNat =
          activeCount (Function.update dev.contacts slot (createdContact keys ids)) := by
        rw [hcount, ← show dev.numContacts.toNat = _ from h, UInt8.toNat_add]
        rw [hcount, ← show dev.numContacts.toNat = _ from h] at hle
        exact Nat.mod_eq_of_lt (lt_of_le_of_lt hle (by decide))
      cases deferred <;> exact hadded

/-- Freeing an active slot lowers the number by one. -/
theorem activeCount_free {contacts : ℕ → Contact} {i : ℕ} (hi : i < maxContacts)
    (hactive : (contacts i).isActive = true) {c : Contact} (hc : c.isActive = false) :
    activeCount (Function.update contacts i c) + 1 = activeCount contacts := by
  have hcount := activeCount_update contacts hi c
  rw [hactive, hc] at hcount
  simpa using hcount

/-- Freeing a free slot leaves the number. -/
theorem activeCount_free_again {contacts : ℕ → Contact} {i : ℕ} (hi : i < maxContacts)
    (hfree : (contacts i).isActive = false) {c : Contact} (hc : c.isActive = false) :
    activeCount (Function.update contacts i c) = activeCount contacts := by
  have hcount := activeCount_update contacts hi c
  rw [hfree, hc] at hcount
  simpa using hcount

/-- A counter is compared with zero by its value. -/
theorem uint8_gt_zero_iff {n : UInt8} : n > 0 ↔ 0 < n.toNat := UInt8.lt_iff_toNat_lt

/-- Subtracting one from a counter that is not zero. -/
theorem uint8_sub_one_toNat {n : UInt8} (h : 0 < n.toNat) : (n - 1).toNat + 1 = n.toNat := by
  rw [UInt8.toNat_sub_of_le n 1 (UInt8.le_iff_toNat_le.mpr h)]
  exact Nat.succ_pred_eq_of_pos h

/-- A removed contact is no longer counted. -/
theorem ContactDevice.CountExact.removeContact {dev : ContactDevice K} (h : dev.CountExact)
    (P : Primitives K) (index : ℕ) (confirmed : Bool) (lands : ℕ → Bool) :
    (dev.removeContact P index confirmed lands).1.CountExact := by
  rw [ContactDevice.removeContact]
  split_ifs with hvalid hconfirmed
  · exact h
  · obtain ⟨hi, hactive⟩ := hvalid
    have hfree := activeCount_free hi hactive Contact.zero_isActive
    have hpos : 0 < dev.numContacts.toNat := lt_of_lt_of_eq (activeCount_pos hi hactive) h.symm
    have hsub := uint8_sub_one_toNat hpos
    have hnum : (dev.numContacts - 1).toNat =
        activeCount (Function.update dev.contacts index .zero) := by
      rw [CountExact] at h
      omega
    simpa only [CountExact, saveContactsToNvs, ratchetWipeSlot_contacts] using hnum
  · exact h

/-- A deletion from the contact list counts the table. -/
theorem ContactDevice.CountExact.popupDelete {dev : ContactDevice K} (h : dev.CountExact)
    (P : Primitives K) (idx : ℕ) (lands : ℕ → Bool) :
    (dev.popupDelete P idx lands).CountExact := by
  rw [ContactDevice.popupDelete]
  split_ifs
  · exact h
  · exact countActive_toNat _

/-- The deferred work leaves the table and the number. -/
theorem ContactDevice.CountExact.processDeferredWork {dev : ContactDevice K} (h : dev.CountExact)
    (lands : ℕ → Bool) (queueLands : Bool) :
    (dev.processDeferredWork lands queueLands).CountExact := by
  have hdirty : (dev.saveDirtyContacts lands).numContacts = dev.numContacts := by
    rw [saveDirtyContacts]
    split_ifs <;> rfl
  have hclean : ∀ d : ContactDevice K, (d.abortCleanup lands).numContacts = d.numContacts := by
    intro d
    rw [abortCleanup]
    split
    · rfl
    · dsimp only
      split_ifs <;> rfl
  have hqueue : ∀ d : ContactDevice K,
      (d.saveDeferredQueue queueLands).numContacts = d.numContacts := by
    intro d
    rw [saveDeferredQueue]
    split
    · rfl
    · rw [replyQueueSave]
      split_ifs <;> rfl
  refine h.of_same (processDeferredWork_requests dev lands queueLands).1 ?_
  rw [ContactDevice.processDeferredWork, hqueue, hclean, hdirty]

/-- The memory of a slot is active only after a whole record has been read. -/
theorem countsContact_eq (nvs : RawNvs) {i : ℕ} (hi : i < maxContacts) :
    countsContact nvs i = (loadedContact nvs i).isActive := by
  rw [countsContact]
  cases hblob : nvsGetBlob nvs (cntKey i) contactSize with
  | none =>
    rw [loadedContact, if_pos hi, hblob]
    rfl
  | some blob =>
    dsimp only
    by_cases hlen : blob.length = contactSize
    · simp [hlen]
    · -- a short blob does not reach the active flag, which is the last byte
      have hle : blob.length ≤ contactSize := by
        simpa using (Option.filter_eq_some_iff.mp hblob).2
      have hshort : blob.length ≤ 275 := Nat.le_of_lt_succ (lt_of_le_of_ne hle hlen)
      have hactive : (Contact.decode blob).active = 0 := List.getD_eq_default _ _ hshort
      rw [loadedContact, if_pos hi, hblob, Option.getD_some, Contact.isActive, hactive]
      simp

/-- What is counted while the records are read is the number of active slots. -/
theorem countP_countsContact (nvs : RawNvs) :
    (List.range maxContacts).countP (countsContact nvs) = activeCount (loadedContact nvs) := by
  refine List.countP_congr fun i hi => ?_
  rw [countsContact_eq nvs (List.mem_range.mp hi)]

/-- A table of an earlier version has at most ten records. -/
theorem legacyTable_count_le {nvs : RawNvs} {table : List UInt8}
    (h : legacyTable nvs = some table) : (table.getD 0 0).toNat ≤ 10 := by
  have hchecked := (Option.filter_eq_some_iff.mp h).2
  simp only [Bool.and_eq_true, decide_eq_true_eq] at hchecked
  exact UInt8.le_iff_toNat_le.mp hchecked.2

/-- If no slot is active, the records of the old table are the only active ones. -/
theorem activeCount_migrated {contacts old : ℕ → Contact} {n : ℕ} (hn : n ≤ maxContacts)
    (hnone : ∀ i < maxContacts, (contacts i).isActive = false) :
    activeCount (fun i => if i < n then old i else contacts i) =
      (List.range n).countP fun i => (old i).isActive := by
  rw [activeCount, countP_range_of_le hn]
  · refine List.countP_congr fun i hi => ?_
    rw [if_pos (List.mem_range.mp hi)]
  · intro i hi hle
    rw [if_neg (Nat.not_lt.mpr hle)]
    exact hnone i hi

/-- A load counts the active slots, whatever is stored and whatever fails. -/
theorem ContactDevice.loadContactsFromBlobs_countExact (dev : ContactDevice K) (nvs : RawNvs)
    (calls : LoadCalls) : (dev.loadContactsFromBlobs nvs calls).1.CountExact := by
  have hread : (UInt8.ofNat ((List.range maxContacts).countP (countsContact nvs))).toNat =
      activeCount (loadedContact nvs) := by
    rw [countP_countsContact]
    exact countActive_toNat _
  rw [loadContactsFromBlobs]
  by_cases hopens : (!calls.opens) = true
  · rw [if_pos hopens]
    exact activeCount_zero.symm
  · rw [if_neg hopens]
    dsimp only
    by_cases hany : (List.range maxContacts).any (countsContact nvs) = true
    · rw [if_pos hany]
      exact hread
    · rw [if_neg hany]
      cases htable : if calls.allocates then legacyTable nvs else none with
      | none => exact hread
      | some table =>
        have hlegacy : legacyTable nvs = some table := by
          split_ifs at htable
          exact htable
        have hn : (table.getD 0 0).toNat ≤ maxContacts :=
          Nat.le_trans (legacyTable_count_le hlegacy) (by decide)
        have hnone : ∀ i < maxContacts, (loadedContact nvs i).isActive = false := by
          intro i hi
          rw [← countsContact_eq nvs hi]
          exact Bool.eq_false_iff.mpr fun hcounts =>
            hany (List.any_eq_true.mpr ⟨i, List.mem_range.mpr hi, hcounts⟩)
        have hmigrated : activeCount (fun i => if i < (table.getD 0 0).toNat then
            legacyContact table i else loadedContact nvs i) = _ := activeCount_migrated hn hnone
        have hzero : (List.range maxContacts).countP (countsContact nvs) = 0 := by
          rw [List.countP_eq_zero]
          intro i hi hcounts
          exact hany (List.any_eq_true.mpr ⟨i, hi, hcounts⟩)
        have hle := activeCount_le fun i =>
          if i < (table.getD 0 0).toNat then legacyContact table i else loadedContact nvs i
        rw [hmigrated] at hle
        rw [hzero]
        refine Eq.trans ?_ hmigrated.symm
        change (UInt8.ofNat 0 + UInt8.ofNat _).toNat = _
        rw [show UInt8.ofNat 0 = 0 from rfl, UInt8.zero_add]
        exact UInt8.toNat_ofNat_of_lt' (lt_of_le_of_lt hle (by decide))

/-! ### The two views of NVS -/

/-- The bytes of NVS are those of its contact records: each key of a slot holds a record or
nothing, and so does the key of the old table with its ten records. -/
structure StoresContacts (nvs : Nvs K) (raw : RawNvs) : Prop where
  record : ∀ i < maxContacts, (nvs (cntKey i) = none ∧ raw (cntKey i) = none) ∨
    ∃ c, nvs (cntKey i) = some (.contact c) ∧ raw (cntKey i) = some c.encode
  table : (nvs "contacts" = none ∧ raw "contacts" = none) ∨
    ∃ count old, old.length = 10 ∧ nvs "contacts" = some (.legacyContacts count old) ∧
      raw "contacts" = some (count :: old.flatMap Contact.encode)

/-- The record of a slot is read from its bytes. -/
theorem StoresContacts.loadedContact_eq {nvs : Nvs K} {raw : RawNvs} (h : StoresContacts nvs raw) :
    loadedContact raw = ContactDevice.loadContact nvs := by
  funext i
  rw [loadedContact, ContactDevice.loadContact]
  by_cases hi : i < maxContacts
  · rw [if_pos hi]
    rcases h.record i hi with ⟨hnone, hraw⟩ | ⟨c, hsome, hraw⟩
    · rw [nvsGetBlob, hraw, hnone]
      rfl
    · have hdecode := Contact.decode_encode c []
      rw [List.append_nil] at hdecode
      simp [nvsGetBlob, hraw, hsome, hi, Option.filter, hdecode]
  · rw [if_neg hi]
    split
    · rw [if_neg hi]
    · rfl

/-- A record of the old table is read from its bytes. -/
theorem legacyContact_eq {count : UInt8} {old : List Contact} {i : ℕ} (hi : i < old.length) :
    legacyContact (count :: old.flatMap Contact.encode) i = old.getD i .zero := by
  have hdrop : (count :: old.flatMap Contact.encode).drop (1 + contactSize * i) =
      (old.flatMap Contact.encode).drop (contactSize * i) := by
    rw [Nat.add_comm, List.drop_succ_cons]
  rw [legacyContact, hdrop, drop_flatMap Contact.encode_length hi, Contact.decode_encode,
    List.getD_eq_getElem _ _ hi]

/-- The old table is found in its bytes if its count is one to ten. -/
theorem legacyTable_eq {raw : RawNvs} {count : UInt8} {old : List Contact} (hold : old.length = 10)
    (hraw : raw "contacts" = some (count :: old.flatMap Contact.encode)) :
    legacyTable raw = if 0 < count ∧ count ≤ 10 then
      some (count :: old.flatMap Contact.encode) else none := by
  have hlength : (count :: old.flatMap Contact.encode).length = 1 + 10 * contactSize := by
    rw [List.length_cons, length_flatMap Contact.encode_length, hold]
    decide
  have hhead : (count :: old.flatMap Contact.encode).getD 0 0 = count := rfl
  rw [legacyTable, nvsGetBlob, hraw, Option.filter_some, if_pos (by simp [hlength]),
    Option.filter_some, hlength, hhead]
  simp

/-- From the bytes of its records a device loads what it loads from its records. -/
theorem loadContactsFromBlobs_eq (dev : ContactDevice K) {raw : RawNvs}
    (h : StoresContacts dev.nvs raw) (lands : ℕ → Bool) :
    (dev.loadContactsFromBlobs raw ⟨true, true, lands⟩).1 = dev.loadContactsFromNvs lands := by
  have hcounts : ∀ i ∈ List.range maxContacts, countsContact raw i =
      (ContactDevice.loadContact dev.nvs i).isActive := by
    intro i hi
    rw [countsContact_eq raw (List.mem_range.mp hi), h.loadedContact_eq]
  have hcount : (List.range maxContacts).countP (countsContact raw) =
      (List.range maxContacts).countP fun i => (ContactDevice.loadContact dev.nvs i).isActive :=
    List.countP_congr fun i hi => by rw [hcounts i hi]
  have hany : (List.range maxContacts).any (countsContact raw) =
      (List.range maxContacts).any fun i => (ContactDevice.loadContact dev.nvs i).isActive := by
    rw [Bool.eq_iff_iff, List.any_eq_true, List.any_eq_true]
    exact exists_congr fun i => and_congr_right fun hi => by rw [hcounts i hi]
  rw [ContactDevice.loadContactsFromBlobs, ContactDevice.loadContactsFromNvs]
  simp only [Bool.not_true, Bool.false_eq_true, if_false, if_true]
  rw [hcount, hany, h.loadedContact_eq]
  by_cases hactive : ((List.range maxContacts).any fun i =>
      (ContactDevice.loadContact dev.nvs i).isActive) = true
  · rw [if_pos hactive, if_pos hactive]
    rfl
  · rw [if_neg hactive, if_neg hactive]
    rcases h.table with ⟨hnone, hraw⟩ | ⟨count, old, hold, hsome, hraw⟩
    · have htable : legacyTable raw = none := by rw [legacyTable, nvsGetBlob, hraw]; rfl
      rw [hnone, htable]
      rfl
    · rw [hsome, legacyTable_eq hold hraw]
      by_cases hchecked : 0 < count ∧ count ≤ 10
      · rw [if_pos hchecked]
        dsimp only
        rw [if_pos hchecked]
        have hhead : (count :: old.flatMap Contact.encode).getD 0 0 = count := rfl
        have hle : count.toNat ≤ old.length := by
          rw [hold]
          exact UInt8.le_iff_toNat_le.mp hchecked.2
        have hmigrated : (fun i => if i < count.toNat then
              legacyContact (count :: old.flatMap Contact.encode) i
            else ContactDevice.loadContact dev.nvs i) = fun i => if i < count.toNat then
              old.getD i .zero else ContactDevice.loadContact dev.nvs i := by
          funext i
          split_ifs with hi
          · exact legacyContact_eq (lt_of_lt_of_le hi hle)
          · rfl
        have hcounted : ((List.range count.toNat).countP fun i =>
              (legacyContact (count :: old.flatMap Contact.encode) i).isActive) =
            (List.range count.toNat).countP fun i => (if i < count.toNat then
              old.getD i .zero else ContactDevice.loadContact dev.nvs i).isActive := by
          refine List.countP_congr fun i hi => ?_
          rw [if_pos (List.mem_range.mp hi),
            legacyContact_eq (lt_of_lt_of_le (List.mem_range.mp hi) hle)]
        have hzero : ((List.range maxContacts).countP fun i =>
            (ContactDevice.loadContact dev.nvs i).isActive) = 0 := by
          rw [List.countP_eq_zero]
          exact fun i hi hcounts => hactive (List.any_eq_true.mpr ⟨i, hi, hcounts⟩)
        rw [hhead, hmigrated, hcounted, hzero, show UInt8.ofNat 0 = 0 from rfl, UInt8.zero_add]
        rfl
      · rw [if_neg hchecked]
        dsimp only
        rw [if_neg hchecked]
        rfl

/-- An abort keeps the number right exactly under its condition. -/
theorem InviteTasks.countExact_abort {s : InviteTasks K} (h : s.dev.CountExact) :
    s.abort.dev.CountExact ↔ CountStep.KeepsCount s (.invite .abort) := by
  rw [InviteTasks.abort]
  cases hpending : s.pendingContactSlot with
  | none => simp [CountStep.KeepsCount, hpending, h]
  | some slot =>
    have hslot : slot < maxContacts := by
      have hchecked := (Option.filter_eq_some_iff.mp hpending).2
      simp only [Bool.and_eq_true, decide_eq_true_eq] at hchecked
      exact hchecked.1.1
    have hinactive : { s.dev.contacts slot with active := 0 : Contact }.isActive = false := rfl
    simp only [CountStep.KeepsCount, hpending, Option.mem_def, Option.some.injEq, forall_eq']
    rw [ContactDevice.CountExact, ContactDevice.abortPendingContact]
    rw [ContactDevice.CountExact] at h
    dsimp only
    cases hactive : (s.dev.contacts slot).isActive with
    | true =>
      have hfree := activeCount_free hslot hactive hinactive
      have hpos : 0 < s.dev.numContacts.toNat :=
        lt_of_lt_of_eq (activeCount_pos hslot hactive) h.symm
      have hsub := uint8_sub_one_toNat hpos
      rw [if_pos (uint8_gt_zero_iff.mpr hpos)]
      exact iff_of_true (Nat.succ.inj (hsub.trans (h.trans hfree.symm))) (Or.inl rfl)
    | false =>
      -- the slot has lost its contact, so nothing is to be subtracted
      have hsame := activeCount_free_again hslot hactive hinactive
      rw [hsame, ← h]
      by_cases hpos : 0 < s.dev.numContacts.toNat
      · have hsub := uint8_sub_one_toNat hpos
        rw [if_pos (uint8_gt_zero_iff.mpr hpos)]
        refine iff_of_false (by omega) ?_
        rintro (hfalse | hzero)
        · exact Bool.false_ne_true hfalse
        · rw [hzero] at hpos
          exact Nat.lt_irrefl 0 hpos
      · have hzero : s.dev.numContacts = 0 :=
          UInt8.toNat_inj.mp (Nat.eq_zero_of_not_pos hpos)
        rw [if_neg fun hgt => hpos (uint8_gt_zero_iff.mp hgt)]
        exact iff_of_true rfl (Or.inr hzero)

/-- A step of the tasks other than an abort keeps the number right. -/
theorem InviteTasks.countExact_step {s : InviteTasks K} (h : s.dev.CountExact) {a : InviteStep}
    (ha : a ≠ .abort) : (s.step a).dev.CountExact := by
  cases a with
  | addContact keys ids =>
    have hadd := h.addContact keys ids true fun _ => true
    simp only [InviteTasks.step, InviteTasks.addContact]
    split_ifs
    · exact h
    · rcases hresult : s.dev.addContact keys ids true fun _ => true with ⟨added, slot | slot⟩ <;>
        rw [hresult] at hadd <;> exact hadd
  | createQueue queue =>
    simp only [InviteTasks.step, InviteTasks.createQueue]
    split <;> exact h
  | abort => exact absurd rfl ha
  | scanned slot => exact h
  | handshakeDone slot => exact h
  | deferredWork lands queueLands => exact h.processDeferredWork lands queueLands

/-- A step keeps the number right exactly under its condition. -/
theorem InviteTasks.countExact_countStep (P : Primitives K) {s : InviteTasks K}
    (h : s.dev.CountExact) (a : CountStep) :
    (s.countStep P a).dev.CountExact ↔ a.KeepsCount s := by
  cases a with
  | load nvs calls => exact iff_of_true (s.dev.loadContactsFromBlobs_countExact nvs calls) trivial
  | add keys ids deferred lands => exact iff_of_true (h.addContact keys ids deferred lands) trivial
  | remove index confirmed lands =>
    refine iff_of_true ?_ trivial
    have hremove := h.removeContact P index confirmed lands
    simp only [InviteTasks.countStep]
    split_ifs <;> exact hremove
  | popupDelete idx lands =>
    refine iff_of_true ?_ trivial
    simp only [InviteTasks.countStep]
    split_ifs
    · exact h
    · exact h.popupDelete P idx lands
  | clearAll => exact iff_of_true activeCount_zero.symm trivial
  | invite a =>
    cases a with
    | abort => exact InviteTasks.countExact_abort h
    | _ => exact iff_of_true (InviteTasks.countExact_step h (by simp)) trivial
  | restart => exact iff_of_true activeCount_zero.symm trivial

/-! ### Whole runs -/

/-- **The number of contacts.** From a start-up with any NVS, over any loads, additions,
removals, clearings and restarts with any of their network and NVS calls failing, and over the
tasks' work on invitations, the number is at every point the number of active slots, exactly when
every abort meets its condition. -/
theorem contact_count_exact_iff (P : Primitives K) (nvs : Nvs K) (steps : List CountStep) :
    let s : InviteTasks K := .start { ContactDevice.blank P with nvs := nvs }
    (∀ front, front <+: steps → (runFrom (InviteTasks.countStep P) s front).dev.CountExact) ↔
      StepsMeet (InviteTasks.countStep P) (fun s a => a.KeepsCount s) s steps := by
  intro s
  have hstart : s.dev.CountExact := activeCount_zero.symm
  exact forall_prefix_iff_stepsMeet (fun s : InviteTasks K => s.dev.CountExact)
    (fun _ a h => InviteTasks.countExact_countStep P h a) hstart steps

/-- Two contacts are made, the second one is removed before its invitation was scanned, and the
invitation is then aborted: the remaining contact is not counted. -/
theorem contact_count_too_small :
    let s := runFrom (InviteTasks.countStep symbolic) (.start (.blank symbolic))
      [.invite (.addContact zeroContactKeys (some zeroQueueIds)), .invite (.createQueue .zero),
        .invite (.addContact zeroContactKeys (some zeroQueueIds)), .invite (.createQueue .zero),
        .remove 1 true fun _ => true, .invite .abort]
    s.dev.numContacts = 0 ∧ (s.dev.contacts 0).isActive = true ∧ ¬ s.dev.CountExact := by
  decide

end SimpleGo
