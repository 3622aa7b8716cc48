import SimpleGo.Rotation.MessageLoss
import SimpleGo.Rotation.Rules

/-!
# Which QKEY is accepted

The format of a QKEY, apart from the reader in `rotation_handle_qkey`. The reader steps over fields
whose lengths it does not know and only warns, so a message is refused when it is cut short, not
when a key is missing; and what was read in front of a cut stays in the record.
-/

namespace SimpleGo

open Lib

/-! ### The format -/

/-- `dhPublicKey`: an X25519 key as SPKI, or raw. -/
inductive QkeyDhKey where
  | spki (key : Bytes 32)
  | raw (key : Bytes 32)

namespace QkeyDhKey

/-- The key. -/
def key : QkeyDhKey → Bytes 32
  | spki key => key
  | raw key => key

/-- Its bytes. -/
def field : QkeyDhKey → List UInt8
  | spki key => RotationDevice.x25519SpkiHdr ++ key.toList
  | raw key => key.toList

end QkeyDhKey

/-- A queue of a QKEY: `newQueueInfo` and `senderKey`. -/
structure QkeyQueue where
  version : Bytes 2
  hosts : List (List UInt8)
  port : List UInt8
  keyHash : List UInt8
  senderId : List UInt8
  dhKey : QkeyDhKey
  /-- The sender key as SPKI. -/
  senderKey : Bytes 44
  hostCount : hosts.length < 256
  short : ∀ field ∈ hosts ++ [port, keyHash, senderId], field.length < 256

namespace QkeyQueue

/-- What comes in front of the keys. -/
def address (q : QkeyQueue) : List UInt8 :=
  q.version.toList ++ UInt8.ofNat q.hosts.length ::
    (q.hosts ++ [q.port, q.keyHash, q.senderId]).flatMap shortString

/-- The bytes of a queue. -/
def encode (q : QkeyQueue) : List UInt8 :=
  q.address ++ (shortString q.dhKey.field ++ shortString q.senderKey.toList)

/-- What a record holds of a queue. -/
def entry (q : QkeyQueue) : QkeyEntry := ⟨q.senderKey, true, q.dhKey.key, true⟩

end QkeyQueue

/-- A payload has these queues: their number and then the queues, whatever follows them. -/
structure IsQkey (data : List UInt8) (queues : List QkeyQueue) : Prop where
  ne_nil : queues ≠ []
  count : queues.length < 256
  data : ∃ rest, data = UInt8.ofNat queues.length :: (queues.flatMap QkeyQueue.encode ++ rest)

/-- A well-formed QKEY. -/
def WellFormedQkey (data : List UInt8) : Prop := ∃ queues, IsQkey data queues

/-! ### Acceptance -/

/-- What `rotation_handle_qkey` returns. -/
def RotationDevice.rotationHandleQkeyReturns (dev : RotationDevice) (idx : ℕ)
    (data : List UInt8) : Bool :=
  !decide (maxContacts ≤ idx ∨
    ((dev.record idx).state ≠ .qaddSent ∧ (dev.record idx).state ≠ .waiting) ∨ data = [] ∨
      data.getD 0 0 = 0) && ((dev.record idx).readQkey data).2

/-- A record has what a QKEY says: the first queue is the main one, the second the reply one. -/
structure RotationContactData.HoldsQkey (rd : RotationContactData) (queues : List QkeyQueue) :
    Prop where
  state : rd.state = .qkeyReceived
  main : ∀ q ∈ queues[0]?, rd.mainPeer = q.entry
  rq : ∀ q ∈ queues[1]?, rd.rqPeer = q.entry

/-- A QKEY is accepted exactly when it is complete. -/
structure RotationDevice.QkeyRight (dev : RotationDevice) (idx : ℕ) (data : List UInt8) :
    Prop where
  accepts : dev.rotationHandleQkeyReturns idx data = true ↔ WellFormedQkey data
  holds : dev.rotationHandleQkeyReturns idx data = true → ∀ queues, IsQkey data queues →
    ((dev.rotationHandleQkey idx data).record idx).HoldsQkey queues
  /-- `app_rotation_send_key` has a key to send. -/
  keyToSend : dev.rotationHandleQkeyReturns idx data = true →
    ((dev.rotationHandleQkey idx data).record idx).mainPeer.hasPeerSenderKey = true
  refuses : dev.rotationHandleQkeyReturns idx data = false →
    (dev.rotationHandleQkey idx data).record idx = dev.record idx

/-! ### Cut messages -/

/-- The key in the `dhPublicKey` field at a position, if it is a supported one. -/
def qkeyDhKeyAt (data : List UInt8) (p : ℕ) : Option (Bytes 32) :=
  if (data.getD p 0).toNat = 44 ∧ p + 1 + 44 ≤ data.length ∧
      (data.drop (p + 1)).take 12 = RotationDevice.x25519SpkiHdr then
    some (bytesAt data (p + 1 + 12) 32)
  else if (data.getD p 0).toNat = 32 ∧ p + 1 + 32 ≤ data.length then
    some (bytesAt data (p + 1) 32)
  else none

/-- The key in the `senderKey` field at a position, if it is a supported one. -/
def qkeySenderKeyAt (data : List UInt8) (p : ℕ) : Option (Bytes 44) :=
  if (data.getD p 0).toNat = 44 ∧ p + 1 + 44 ≤ data.length then some (bytesAt data (p + 1) 44)
  else none

/-- The position of the sender key of an entry, none where the message is cut in front of it. -/
def qkeySenderPosition (data : List UInt8) (p : ℕ) : Option ℕ :=
  (qkeyDhPosition data p).bind fun p =>
    if data.length ≤ p + 1 + (data.getD p 0).toNat then none
    else some (p + 1 + (data.getD p 0).toNat)

/-- The position behind an entry, none where the message is cut in it. -/
def qkeyEnd (data : List UInt8) (p : ℕ) : Option ℕ :=
  (qkeySenderPosition data p).map fun p => p + 1 + (data.getD p 0).toNat

namespace QkeyEntry

/-- An entry has the DH key of a message already, as far as there is one. -/
def KeepsDh (e : QkeyEntry) (data : List UInt8) (p : ℕ) : Prop :=
  ∀ dh ∈ qkeyDhPosition data p, ∀ key ∈ qkeyDhKeyAt data dh,
    e.peerE2ePublic = key ∧ e.hasPeerE2ePublic = true

/-- An entry has the sender key of a message already, as far as there is one. -/
def KeepsSender (e : QkeyEntry) (data : List UInt8) (p : ℕ) : Prop :=
  ∀ sender ∈ qkeySenderPosition data p, ∀ key ∈ qkeySenderKeyAt data sender,
    e.peerSenderKey = key ∧ e.hasPeerSenderKey = true

end QkeyEntry

/-- A message without queues, or cut in the first or the second of them, with no new key in front
of the cut. -/
def RotationContactData.CutKept (rd : RotationContactData) (data : List UInt8) : Prop :=
  data.getD 0 0 = 0 ∨ (qkeyEnd data 1 = none ∧ rd.mainPeer.KeepsDh data 1) ∨
    ∃ p, qkeyEnd data 1 = some p ∧ 2 ≤ data.getD 0 0 ∧ qkeyEnd data p = none ∧
      rd.mainPeer.KeepsSender data 1 ∧ rd.mainPeer.KeepsDh data 1 ∧ rd.rqPeer.KeepsDh data p

/-! ### The reader -/

namespace QkeyEntry

variable (e : QkeyEntry) (data : List UInt8)

/-- Reading a DH key, by the key in the field. -/
theorem readDh_eq (p : ℕ) : e.readDh data (p + 1) (data.getD p 0).toNat =
    match qkeyDhKeyAt data p with
    | none => e
    | some key => { e with peerE2ePublic := key, hasPeerE2ePublic := true } := by
  rw [readDh, qkeyDhKeyAt]
  split_ifs <;> rfl

/-- Reading a sender key, by the key in the field. -/
theorem readSenderKey_eq (p : ℕ) : e.readSenderKey data (p + 1) (data.getD p 0).toNat =
    match qkeySenderKeyAt data p with
    | none => e
    | some key => { e with peerSenderKey := key, hasPeerSenderKey := true } := by
  rw [readSenderKey, qkeySenderKeyAt]
  split_ifs <;> rfl

/-- A DH key is read and nothing changes. -/
theorem readDh_eq_self (p : ℕ) : e.readDh data (p + 1) (data.getD p 0).toNat = e ↔
    ∀ key ∈ qkeyDhKeyAt data p, e.peerE2ePublic = key ∧ e.hasPeerE2ePublic = true := by
  rw [readDh_eq]
  cases qkeyDhKeyAt data p with
  | none => exact ⟨fun _ _ => nofun, fun _ => rfl⟩
  | some key =>
    constructor
    · intro h key' hkey
      obtain rfl := Option.some.inj hkey
      exact ⟨(congrArg peerE2ePublic h).symm, (congrArg hasPeerE2ePublic h).symm⟩
    · intro h
      obtain ⟨hkey, hhas⟩ := h key rfl
      rw [← hkey, ← hhas]

/-- What an entry is after reading: where the message is cut, only the DH key was read. -/
theorem read_eq (p : ℕ) : e.read data p =
    match qkeyDhPosition data p with
    | none => (e, none)
    | some dh =>
      match qkeySenderPosition data p with
      | none => (e.readDh data (dh + 1) (data.getD dh 0).toNat, none)
      | some sender =>
        ((e.readDh data (dh + 1) (data.getD dh 0).toNat).readSenderKey data (sender + 1)
          (data.getD sender 0).toNat, some (sender + 1 + (data.getD sender 0).toNat)) := by
  rw [read, qkeySenderPosition]
  cases qkeyDhPosition data p with
  | none => rfl
  | some dh =>
    simp only [Option.bind_some]
    split_ifs <;> rfl

/-- The position behind an entry does not depend on the record. -/
theorem read_end (p : ℕ) : (e.read data p).2 = qkeyEnd data p := by
  rw [read_eq, qkeyEnd]
  cases hdh : qkeyDhPosition data p with
  | none => simp only [qkeySenderPosition, hdh, Option.bind_none, Option.map_none]
  | some dh =>
    cases qkeySenderPosition data p <;> rfl

/-- A cut entry leaves the record as it is when it has the DH key already. -/
theorem read_cut_kept {p : ℕ} (hcut : qkeyEnd data p = none) :
    (e.read data p).1 = e ↔ e.KeepsDh data p := by
  have hsender : qkeySenderPosition data p = none := Option.map_eq_none_iff.mp hcut
  rw [read_eq, KeepsDh]
  cases hdh : qkeyDhPosition data p with
  | none => exact ⟨fun _ _ => nofun, fun _ => rfl⟩
  | some dh =>
    simp only [hsender, readDh_eq_self, Option.mem_some_iff, forall_eq']

/-- A whole entry leaves the record as it is when it has both keys already. -/
theorem read_whole_kept {p p' : ℕ} (hwhole : qkeyEnd data p = some p') :
    (e.read data p).1 = e ↔ e.KeepsSender data p ∧ e.KeepsDh data p := by
  obtain ⟨sender, hsender, -⟩ := Option.map_eq_some_iff.mp hwhole
  obtain ⟨dh, hdh, -⟩ := Option.bind_eq_some_iff.mp hsender
  rw [@eq_comm _ (e.read data p).1 e, read_eq, KeepsDh, KeepsSender]
  simp only [hdh, hsender, Option.mem_some_iff, forall_eq', readSenderKey_eq, readDh_eq]
  obtain ⟨senderKey, hasSender, dhKey, hasDh⟩ := e
  cases qkeyDhKeyAt data dh <;> cases qkeySenderKeyAt data sender <;>
    simp only [mk.injEq, Option.mem_def, reduceCtorEq, false_implies, implies_true, and_true,
      true_and, Option.some.injEq, forall_eq', and_assoc]

end QkeyEntry

/-- What the record becomes when the message is cut, and when it is unchanged. -/
theorem RotationContactData.readQkey_cut (rd : RotationContactData) {data : List UInt8}
    (hcut : (rd.readQkey data).2 = false) :
    (rd.readQkey data).1 = rd ↔
      (qkeyEnd data 1 = none ∧ rd.mainPeer.KeepsDh data 1) ∨
      ∃ p, qkeyEnd data 1 = some p ∧ 2 ≤ data.getD 0 0 ∧ qkeyEnd data p = none ∧
        rd.mainPeer.KeepsSender data 1 ∧ rd.mainPeer.KeepsDh data 1 ∧
        rd.rqPeer.KeepsDh data p := by
  have hmain : ∀ entry : QkeyEntry, { rd with mainPeer := entry } = rd ↔ entry = rd.mainPeer :=
    fun entry => ⟨fun h => congrArg mainPeer h, fun h => by rw [h]⟩
  have hboth : ∀ entry entry' : QkeyEntry, { rd with mainPeer := entry, rqPeer := entry' } = rd ↔
      entry = rd.mainPeer ∧ entry' = rd.rqPeer := fun entry entry' =>
    ⟨fun h => ⟨congrArg mainPeer h, congrArg rqPeer h⟩, fun ⟨h, h'⟩ => by rw [h, h']⟩
  rw [readQkey] at hcut ⊢
  rw [QkeyEntry.read_end] at hcut ⊢
  cases hend : qkeyEnd data 1 with
  | none =>
    simp only [reduceCtorEq, false_and, exists_false, or_false, true_and]
    exact (hmain _).trans (rd.mainPeer.read_cut_kept data hend)
  | some p =>
    simp only [hend] at hcut
    by_cases hone : data.getD 0 0 < 2
    · rw [if_pos hone] at hcut
      cases hcut
    · simp only [if_neg hone, QkeyEntry.read_end] at hcut
      have hrq : qkeyEnd data p = none :=
        Option.isNone_iff_eq_none.mp (Option.isSome_eq_false_iff.mp hcut)
      simp only [if_neg hone, hboth, Option.some.injEq, reduceCtorEq, false_and, false_or,
        exists_eq_left', rd.mainPeer.read_whole_kept data hend, rd.rqPeer.read_cut_kept data hrq,
        UInt8.not_lt.mp hone, hrq, true_and]
      exact and_assoc

/-- All entries are read when none of the first two that there are is cut. -/
theorem RotationContactData.readQkey_whole (rd : RotationContactData) (data : List UInt8) :
    (rd.readQkey data).2 = (qkeyEnd data 1).any fun p =>
      decide (data.getD 0 0 < 2) || (qkeyEnd data p).isSome := by
  rw [readQkey]
  simp only [QkeyEntry.read_end]
  cases qkeyEnd data 1 with
  | none => rfl
  | some p =>
    by_cases hone : data.getD 0 0 < 2
    · simp only [if_pos hone, Option.any_some, decide_eq_true hone, Bool.true_or]
    · simp only [if_neg hone, Option.any_some, decide_eq_false hone, Bool.false_or]

/-- A message with no new key in front of its cut is refused and leaves the record. -/
theorem RotationContactData.CutKept.readQkey {rd : RotationContactData} {data : List UInt8}
    (h : rd.CutKept data) : data.getD 0 0 = 0 ∨
      ((rd.readQkey data).2 = false ∧ (rd.readQkey data).1 = rd) := by
  rcases h with hzero | hcut
  · exact .inl hzero
  · have hrefused : (rd.readQkey data).2 = false := by
      rw [readQkey_whole]
      rcases hcut with ⟨hend, -⟩ | ⟨p, hend, hmore, hrq, -⟩
      · rw [hend]
        rfl
      · rw [hend, Option.any_some, decide_eq_false (UInt8.not_lt.mpr hmore), hrq]
        rfl
    exact .inr ⟨hrefused, (rd.readQkey_cut hrefused).mpr hcut⟩

/-! ### Well-formed messages -/

section Fields

variable {data rest : List UInt8} {p : ℕ}

/-- A byte that is there is read at its position. -/
theorem getD_of_drop {b : UInt8} (h : data.drop p = b :: rest) :
    p < data.length ∧ data.getD p 0 = b ∧ data.drop (p + 1) = rest := by
  refine ⟨?_, ?_, ?_⟩
  · by_contra hout
    rw [List.drop_eq_nil_of_le (Nat.not_lt.mp hout)] at h
    cases h
  · have hbyte : (data.drop p).getD 0 0 = b := by rw [h]; rfl
    rwa [List.getD_eq_getElem?_getD, List.getElem?_drop, Nat.add_zero,
      ← List.getD_eq_getElem?_getD] at hbyte
  · rw [← List.drop_drop, h]
    rfl

/-- A field that is there has its length in front. -/
theorem field_of_drop {field : List UInt8} (h : data.drop p = shortString field ++ rest) :
    p < data.length ∧ data.getD p 0 = UInt8.ofNat field.length ∧
      data.drop (p + 1) = field ++ rest :=
  getD_of_drop h

/-- A key that is there is read at its position. -/
theorem bytesAt_of_drop {n : ℕ} {key : Bytes n} (h : data.drop p = key.toList ++ rest) :
    bytesAt data p n = key := by
  apply Vector.ext
  intro i hi
  have hbyte : (data.drop p).getD i 0 = key[i] := by
    rw [h, List.getD_append _ _ _ _ (by rwa [Vector.length_toList]),
      List.getD_eq_getElem _ _ (by rwa [Vector.length_toList]), Vector.getElem_toList]
  rw [bytesAt, Vector.getElem_ofFn, ← hbyte, List.getD_eq_getElem?_getD,
    List.getD_eq_getElem?_getD, List.getElem?_drop]

/-- A field that is there is stepped over. -/
theorem skipPrefixed_shortString {field : List UInt8} (hshort : field.length < 256)
    (h : data.drop p = shortString field ++ rest) :
    skipPrefixed data p = some (p + (shortString field).length) := by
  obtain ⟨hin, hlen, -⟩ := field_of_drop h
  rw [skipPrefixed, if_neg (Nat.not_le_of_lt hin), hlen, toNat_ofNat_mod,
    Nat.mod_eq_of_lt hshort, shortString, List.length_cons]
  congr 1
  omega

/-- Fields that are there are stepped over. -/
theorem skipFields_flatMap {fields : List (List UInt8)}
    (hshort : ∀ field ∈ fields, field.length < 256)
    (h : data.drop p = fields.flatMap shortString ++ rest) :
    skipFields data fields.length p = some (p + (fields.flatMap shortString).length) := by
  induction fields generalizing p with
  | nil => rfl
  | cons field fields ih =>
    rw [List.flatMap_cons, List.append_assoc] at h
    have hnext : data.drop (p + (shortString field).length) =
        fields.flatMap shortString ++ rest := by
      rw [← List.drop_drop, h, List.drop_left]
    rw [List.length_cons, skipFields,
      skipPrefixed_shortString (hshort field List.mem_cons_self) h, List.flatMap_cons,
      List.length_append, ← Nat.add_assoc]
    exact ih (fun later hlater => hshort later (List.mem_cons_of_mem field hlater)) hnext

/-- Stepping over some fields and then over others. -/
theorem skipFields_add (data : List UInt8) (a b p : ℕ) :
    skipFields data (a + b) p = skipFields data a p >>= skipFields data b := by
  induction a generalizing p with
  | zero => rw [Nat.zero_add]; rfl
  | succ a ih =>
    rw [Nat.succ_add, skipFields, skipFields]
    cases skipPrefixed data p with
    | none => rfl
    | some p' => exact ih p'

/-- The keys of a queue that is there begin behind its address. -/
theorem qkeyDhPosition_address {q : QkeyQueue} (h : data.drop p = q.address ++ rest)
    (hrest : rest ≠ []) : qkeyDhPosition data p = some (p + q.address.length) := by
  have hversion : data.drop (p + 2) = UInt8.ofNat q.hosts.length ::
      ((q.hosts ++ [q.port, q.keyHash, q.senderId]).flatMap shortString ++ rest) := by
    rw [← List.drop_drop, h, QkeyQueue.address, List.append_assoc,
      List.drop_left' (Vector.length_toList), List.cons_append]
  obtain ⟨hin, hcount, hfields⟩ := getD_of_drop hversion
  have hskip := skipFields_flatMap q.short hfields
  have hlen : p + 2 + 1 + ((q.hosts ++ [q.port, q.keyHash, q.senderId]).flatMap
      shortString).length = p + q.address.length := by
    rw [QkeyQueue.address, List.length_append, Vector.length_toList, List.length_cons]
    omega
  have hend : p + q.address.length < data.length := by
    have hall := congrArg List.length h
    have hpos := List.length_pos_iff.mpr hrest
    rw [List.length_drop, List.length_append] at hall
    omega
  rw [List.length_append, skipFields_add, hlen] at hskip
  rw [qkeyDhPosition, if_neg (by omega), if_neg (by omega), hcount, toNat_ofNat_mod,
    Nat.mod_eq_of_lt q.hostCount]
  change (skipFields data q.hosts.length (p + 2 + 1)).bind (fun p =>
    (skipFields data 3 p).bind fun p => if data.length ≤ p then none else some p) = _
  rw [← Option.bind_assoc]
  change ((skipFields data q.hosts.length (p + 2 + 1)).bind (skipFields data 3)) = _ at hskip
  rw [hskip, Option.bind_some, if_neg (Nat.not_le_of_lt hend)]

/-- A DH key that is there is read. -/
theorem qkeyDhKeyAt_field {key : QkeyDhKey} (h : data.drop p = shortString key.field ++ rest) :
    qkeyDhKeyAt data p = some key.key ∧
      p + 1 + (data.getD p 0).toNat = p + (shortString key.field).length := by
  obtain ⟨hin, hlen, hbytes⟩ := field_of_drop h
  have hall := congrArg List.length hbytes
  rw [List.length_drop, List.length_append] at hall
  cases key with
  | spki key =>
    have hfield : (QkeyDhKey.spki key).field = RotationDevice.x25519SpkiHdr ++ key.toList := rfl
    have hlength : (QkeyDhKey.spki key).field.length = 44 := by
      rw [hfield, List.length_append, Vector.length_toList]
      rfl
    rw [hlength] at hlen hall
    have hkey : data.drop (p + 1 + 12) = key.toList ++ rest := by
      rw [← List.drop_drop, hbytes, hfield, List.append_assoc]
      rfl
    refine ⟨?_, ?_⟩
    · rw [qkeyDhKeyAt, hlen, if_pos ⟨rfl, by omega, by rw [hbytes, hfield, List.append_assoc]; rfl⟩,
        bytesAt_of_drop hkey]
      rfl
    · rw [hlen, shortString, List.length_cons, hlength]
      rfl
  | raw key =>
    have hfield : (QkeyDhKey.raw key).field = key.toList := rfl
    have hlength : (QkeyDhKey.raw key).field.length = 32 := by
      rw [hfield, Vector.length_toList]
    rw [hlength] at hlen hall
    refine ⟨?_, ?_⟩
    · rw [qkeyDhKeyAt, hlen, if_neg (fun hspki => absurd hspki.1 (by decide)),
        if_pos ⟨rfl, by omega⟩, bytesAt_of_drop hbytes]
      rfl
    · rw [hlen, shortString, List.length_cons, hlength]
      rfl

/-- A sender key that is there is read. -/
theorem qkeySenderKeyAt_field {key : Bytes 44} (h : data.drop p = shortString key.toList ++ rest) :
    qkeySenderKeyAt data p = some key ∧
      p + 1 + (data.getD p 0).toNat = p + (shortString key.toList).length := by
  obtain ⟨hin, hlen, hbytes⟩ := field_of_drop h
  have hall := congrArg List.length hbytes
  rw [List.length_drop, List.length_append, Vector.length_toList] at hall
  rw [Vector.length_toList] at hlen
  refine ⟨?_, ?_⟩
  · rw [qkeySenderKeyAt, hlen, if_pos ⟨rfl, by omega⟩, bytesAt_of_drop hbytes]
  · rw [hlen, shortString, List.length_cons, Vector.length_toList]
    rfl

/-- A queue that is there is read, and its keys are held afterwards. -/
theorem QkeyEntry.read_encode (e : QkeyEntry) {q : QkeyQueue}
    (h : data.drop p = q.encode ++ rest) :
    e.read data p = (q.entry, some (p + q.encode.length)) := by
  rw [QkeyQueue.encode, List.append_assoc, List.append_assoc] at h
  have hdh := qkeyDhPosition_address h (by simp [shortString])
  have hdhField : data.drop (p + q.address.length) =
      shortString q.dhKey.field ++ (shortString q.senderKey.toList ++ rest) := by
    rw [← List.drop_drop, h, List.drop_left]
  obtain ⟨hkey, hnext⟩ := qkeyDhKeyAt_field hdhField
  have hsenderField : data.drop (p + q.address.length + (shortString q.dhKey.field).length) =
      shortString q.senderKey.toList ++ rest := by
    rw [← List.drop_drop, hdhField, List.drop_left]
  obtain ⟨hsenderKey, hend⟩ := qkeySenderKeyAt_field hsenderField
  have hsender : qkeySenderPosition data p =
      some (p + q.address.length + (shortString q.dhKey.field).length) := by
    rw [qkeySenderPosition, hdh, Option.bind_some, hnext,
      if_neg (Nat.not_le_of_lt (field_of_drop hsenderField).1)]
  rw [QkeyEntry.read_eq]
  simp only [hdh, hsender, QkeyEntry.readSenderKey_eq, QkeyEntry.readDh_eq, hkey, hsenderKey, hend]
  rw [QkeyQueue.encode, List.length_append, List.length_append, ← Nat.add_assoc, ← Nat.add_assoc]
  rfl

end Fields

/-- A well-formed message is read whole, and its keys are held afterwards. -/
theorem RotationContactData.readQkey_wellFormed (rd : RotationContactData) {data : List UInt8}
    {queues : List QkeyQueue} (h : IsQkey data queues) :
    data ≠ [] ∧ data.getD 0 0 ≠ 0 ∧ (rd.readQkey data).2 = true ∧
      (∀ q ∈ queues[0]?, (rd.readQkey data).1.mainPeer = q.entry) ∧
      ∀ q ∈ queues[1]?, (rd.readQkey data).1.rqPeer = q.entry := by
  obtain ⟨hne, hcount, rest, hdata⟩ := h
  have hfirst : data.getD 0 0 = UInt8.ofNat queues.length := by rw [hdata]; rfl
  have hbyte : (data.getD 0 0).toNat = queues.length := by
    rw [hfirst, toNat_ofNat_mod, Nat.mod_eq_of_lt hcount]
  have hpos := List.length_pos_iff.mpr hne
  refine ⟨by rw [hdata]; exact List.cons_ne_nil _ _, fun hzero => ?_, ?_⟩
  · rw [hzero] at hbyte
    exact absurd hbyte (Nat.ne_of_lt hpos)
  cases queues with
  | nil => exact absurd rfl hne
  | cons main queues =>
    have hmain : data.drop 1 = main.encode ++ (queues.flatMap QkeyQueue.encode ++ rest) := by
      rw [hdata, List.flatMap_cons, List.append_assoc]
      rfl
    have hread := rd.mainPeer.read_encode hmain
    rw [readQkey]
    simp only [hread]
    cases queues with
    | nil =>
      have hone : data.getD 0 0 < 2 := by
        rw [UInt8.lt_iff_toNat_lt, hbyte]
        exact Nat.one_lt_two
      rw [if_pos hone]
      exact ⟨rfl, fun q hq => by rw [← Option.some.inj hq],
        fun q hq => absurd hq (Option.not_mem_none q)⟩
    | cons rq queues =>
      have hmore : ¬ data.getD 0 0 < 2 := by
        rw [UInt8.lt_iff_toNat_lt, hbyte]
        exact Nat.not_lt.mpr (Nat.le_add_left 2 queues.length)
      have hrq : data.drop (1 + main.encode.length) =
          rq.encode ++ (queues.flatMap QkeyQueue.encode ++ rest) := by
        rw [← List.drop_drop, hmain, List.drop_left, List.flatMap_cons, List.append_assoc]
      rw [if_neg hmore, rd.rqPeer.read_encode hrq]
      exact ⟨rfl, fun q hq => by rw [← Option.some.inj hq], fun q hq => by
        rw [← Option.some.inj hq]⟩

/-! ### When a QKEY is accepted right -/

namespace RotationDevice

variable {dev : RotationDevice} {idx : ℕ} {data : List UInt8}

/-- A contact that waits for a QKEY has a record. -/
theorem records_isSome_of_qaddSent (hstate : (dev.record idx).state = .qaddSent) :
    dev.records.isSome = true := by
  rw [record] at hstate
  cases hrecords : dev.records with
  | none =>
    rw [hrecords] at hstate
    cases hstate
  | some rs => rfl

/-- The record just set. -/
theorem setRecord_record_self (hsome : dev.records.isSome = true) (rd : RotationContactData) :
    (dev.setRecord idx rd).record idx = rd := by
  obtain ⟨rs, hrs⟩ := Option.isSome_iff_exists.mp hsome
  simp only [setRecord, record, hrs, Option.map_some, Function.update_self]

/-- What keeps a message from being read by a contact that waits for it. -/
theorem qkeyGuard_iff (hidx : idx < maxContacts) (hstate : (dev.record idx).state = .qaddSent) :
    (maxContacts ≤ idx ∨ ((dev.record idx).state ≠ .qaddSent ∧ (dev.record idx).state ≠ .waiting) ∨
      data = [] ∨ data.getD 0 0 = 0) ↔ data.getD 0 0 = 0 := by
  constructor
  · rintro (hout | ⟨hother, -⟩ | rfl | hzero)
    · exact absurd hidx (Nat.not_lt.mpr hout)
    · exact absurd hstate hother
    · rfl
    · exact hzero
  · exact fun hzero => .inr (.inr (.inr hzero))

/-- What a contact that waits for a QKEY answers. -/
theorem rotationHandleQkeyReturns_iff (hidx : idx < maxContacts)
    (hstate : (dev.record idx).state = .qaddSent) :
    dev.rotationHandleQkeyReturns idx data = true ↔
      data.getD 0 0 ≠ 0 ∧ ((dev.record idx).readQkey data).2 = true := by
  rw [rotationHandleQkeyReturns, Bool.and_eq_true, Bool.not_eq_true', decide_eq_false_iff_not,
    qkeyGuard_iff hidx hstate]

/-- The record of such a contact after an accepted and after a refused message. -/
theorem rotationHandleQkey_record (hidx : idx < maxContacts)
    (hstate : (dev.record idx).state = .qaddSent) :
    (dev.rotationHandleQkey idx data).record idx =
      if data.getD 0 0 = 0 then dev.record idx
      else if ((dev.record idx).readQkey data).2 then
        { ((dev.record idx).readQkey data).1 with state := .qkeyReceived }
      else ((dev.record idx).readQkey data).1 := by
  have hsome := records_isSome_of_qaddSent hstate
  rw [rotationHandleQkey]
  simp only [qkeyGuard_iff hidx hstate]
  by_cases hzero : data.getD 0 0 = 0
  · rw [if_pos hzero, if_pos hzero]
  · rw [if_neg hzero, if_neg hzero]
    by_cases hwhole : ((dev.record idx).readQkey data).2 = true
    · rw [if_pos hwhole, if_pos hwhole, updateRecord_record_self hsome]
    · rw [if_neg hwhole, if_neg hwhole, setRecord_record_self hsome]

end RotationDevice

/-- A QKEY is accepted exactly when it is complete, if it is well-formed, or cut short with no new
key in front of the cut; in every other case it is not. -/
theorem qkey_accepted_right_iff {dev : RotationDevice} {idx : ℕ} (hidx : idx < maxContacts)
    (hstate : (dev.record idx).state = .qaddSent) (data : List UInt8) :
    dev.QkeyRight idx data ↔ WellFormedQkey data ∨ (dev.record idx).CutKept data := by
  have hrecord := @RotationDevice.rotationHandleQkey_record dev idx data hidx hstate
  have hreturns := @RotationDevice.rotationHandleQkeyReturns_iff dev idx data hidx hstate
  have hwell : ∀ queues, IsQkey data queues → dev.rotationHandleQkeyReturns idx data = true ∧
      ((dev.rotationHandleQkey idx data).record idx).HoldsQkey queues ∧
      ((dev.rotationHandleQkey idx data).record idx).mainPeer.hasPeerSenderKey = true := by
    intro queues hqueues
    obtain ⟨-, hfirst, hwhole, hmain, hrq⟩ := (dev.record idx).readQkey_wellFormed hqueues
    rw [if_neg hfirst, if_pos hwhole] at hrecord
    refine ⟨hreturns.mpr ⟨hfirst, hwhole⟩, ?_⟩
    rw [hrecord]
    refine ⟨⟨rfl, hmain, hrq⟩, ?_⟩
    obtain ⟨main, rest, rfl⟩ := List.exists_cons_of_ne_nil hqueues.ne_nil
    exact congrArg QkeyEntry.hasPeerSenderKey (hmain main rfl)
  constructor
  · intro hright
    by_cases haccepted : dev.rotationHandleQkeyReturns idx data = true
    · exact .inl (hright.accepts.mp haccepted)
    · have hsame := hright.refuses (Bool.eq_false_iff.mpr haccepted)
      rw [hrecord] at hsame
      by_cases hzero : data.getD 0 0 = 0
      · exact .inr (.inl hzero)
      · have hcut : ((dev.record idx).readQkey data).2 = false :=
          Bool.eq_false_iff.mpr fun hwhole => haccepted (hreturns.mpr ⟨hzero, hwhole⟩)
        rw [if_neg hzero, hcut, if_neg Bool.false_ne_true] at hsame
        exact .inr (.inr (((dev.record idx).readQkey_cut hcut).mp hsame))
  · rintro (⟨queues, hqueues⟩ | hcut)
    · obtain ⟨haccepted, -, hkey⟩ := hwell queues hqueues
      exact ⟨⟨fun _ => ⟨queues, hqueues⟩, fun _ => haccepted⟩,
        fun _ queues' hqueues' => (hwell queues' hqueues').2.1, fun _ => hkey,
        fun hrefused => nomatch haccepted.symm.trans hrefused⟩
    · have hrefused : dev.rotationHandleQkeyReturns idx data ≠ true := fun haccepted => by
        obtain ⟨hfirst, hwhole⟩ := hreturns.mp haccepted
        exact nomatch hwhole.symm.trans (hcut.readQkey.resolve_left hfirst).1
      refine ⟨⟨fun haccepted => absurd haccepted hrefused, fun ⟨queues, hqueues⟩ =>
        (hwell queues hqueues).1⟩, fun haccepted => absurd haccepted hrefused,
        fun haccepted => absurd haccepted hrefused, fun _ => ?_⟩
      rw [hrecord]
      rcases hcut.readQkey with hzero | ⟨hwhole, hsame⟩
      · rw [if_pos hzero]
      · rw [hwhole, if_neg Bool.false_ne_true, hsame, ite_self]

/-! ### A key of another length -/

/-- A contact that waits for a QKEY. -/
def qkeyWaitingDevice : RotationDevice :=
  (RotationDevice.fresh sampleOurQueue 2).setRecord 0 { RotationContactData.zero with
    state := .qaddSent }

/-- A queue as a peer sends it. -/
def sampleQkeyQueue : QkeyQueue where
  version := #v[0, 4]
  hosts := [[0x61]]
  port := [0x31]
  keyHash := [7]
  senderId := [9]
  dhKey := .spki (zeroBytes 32)
  senderKey := zeroBytes 44
  hostCount := by decide
  short := by decide

/-- A message with one queue whose sender key has 45 bytes. -/
def longKeyQkey : List UInt8 :=
  1 :: (sampleQkeyQueue.address ++ shortString sampleQkeyQueue.dhKey.field ++
    shortString (List.replicate 45 0))

/-- A complete QKEY is accepted right. -/
theorem qkey_accepted_right_complete :
    qkeyWaitingDevice.QkeyRight 0 (1 :: sampleQkeyQueue.encode) :=
  (qkey_accepted_right_iff (by decide) rfl _).mpr
    (.inl ⟨[sampleQkeyQueue], by decide, by decide, [], by
      rw [List.append_nil, List.flatMap_singleton]; rfl⟩)

/-- A message with a sender key of another length is accepted, and there is no key to send. -/
theorem qkey_accepted_without_key : ¬ qkeyWaitingDevice.QkeyRight 0 longKeyQkey := by
  intro hright
  have hkey := hright.keyToSend (by decide)
  revert hkey
  decide

end SimpleGo
