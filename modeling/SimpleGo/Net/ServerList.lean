import Mathlib.Tactic.FinCases
import SimpleGo.Agent.Codings
import SimpleGo.History.Format
import SimpleGo.Lib.Buffers
import SimpleGo.Lib.Runs
import SimpleGo.Peer.AgentMessage
import SimpleGo.Rotation.Records

/-!
# The server list and its active entry

The list and the active index are two blobs in NVS, loaded separately. The list is a header of
four bytes and the memory of the entries; where it cannot be used, the presets are decoded and
saved. An index that is missing or out of range is replaced by a default, the position of the
last preset, which is in range only if the list is as long as the presets.
-/

namespace SimpleGo

open Lib

/-- The keys `SRV_NVS_KEY` and `ACTIVE_NVS_KEY`. -/
inductive ServerKey where
  | srvList
  | activeSrv
  deriving DecidableEq

/-- The NVS namespace. -/
abbrev ServerNvs := Store ServerKey (List UInt8)

/-- `MAX_SMP_SERVERS`. -/
def maxSmpServers : ℕ := 32

/-- `SRV_NVS_VERSION`. -/
def srvNvsVersion : UInt8 := 3

/-- `SMP_SERVER_ROLE_ALL`. -/
def smpServerRoleAll : UInt8 := 3

/-- `SMP_OP_CUSTOM`. -/
def smpOpCustom : UInt8 := 3

/-! ### Entries -/

/-- `smp_server_t`. -/
structure ServerEntry extends SmpServer where
  op : UInt8
  roles : UInt8
  enabled : UInt8
  preset : UInt8
  deriving DecidableEq

namespace ServerEntry

/-- `sizeof(smp_server_t)`. -/
def size : ℕ := 102

/-- Zeroed memory. -/
def zero : ServerEntry where
  host := zeroBytes 64
  port := 0
  keyHash := zeroBytes 32
  op := 0
  roles := 0
  enabled := 0
  preset := 0

/-- The memory of an entry. -/
def encode (e : ServerEntry) : List UInt8 :=
  e.host.toList ++ (le16 e.port ++ (e.keyHash.toList ++ [e.op, e.roles, e.enabled, e.preset]))

/-- An entry copied out of memory. -/
def decode (mem : List UInt8) : ServerEntry where
  host := bytesAt mem 0 64
  port := UInt16.ofNat ((mem.getD 64 0).toNat + 256 * (mem.getD 65 0).toNat)
  keyHash := bytesAt mem 66 32
  op := mem.getD 98 0
  roles := mem.getD 99 0
  enabled := mem.getD 100 0
  preset := mem.getD 101 0

/-- The memory of an entry has its size. -/
@[simp] theorem encode_length (e : ServerEntry) : e.encode.length = size := by
  simp [encode, le16, size]

/-- What is copied out of the memory of an entry, whatever follows it, is the entry. -/
theorem decode_encode (e : ServerEntry) (rest : List UInt8) : decode (e.encode ++ rest) = e := by
  have hport := ofNat_le16 e.port
  simp only [UInt8.toNat_ofNat'] at hport
  simp [decode, encode, le16, bytesAt_append_of_le, bytesAt_cons, List.getElem?_append_right, hport]

end ServerEntry

/-! ### Presets -/

/-- `server_preset_t`. -/
structure ServerPreset where
  host : String
  fingerprintB64 : String
  op : UInt8
  roles : UInt8

/-- `PRESETS`. -/
def serverPresets : List ServerPreset :=
  [⟨"smp8.simplex.im", "0YuTwO05YJWS8rkjn9eLJDjQhFKvIYd8d4xG8X1blIU=", 0, smpServerRoleAll⟩,
    ⟨"smp9.simplex.im", "SkIkI6EPd2D63F4xFKfHk7I1UGZVNn6k1QWZ5rcyr6w=", 0, smpServerRoleAll⟩,
    ⟨"smp10.simplex.im", "6iIcWT_dF2zN_w5xzZEY7HI2Prbh3ldP07YTyDexPjE=", 0, smpServerRoleAll⟩,
    ⟨"smp11.simplex.im", "1OwYGt-yqOfe2IyVHhxz3ohqo3aCCMjtB-8wn4X_aoY=", 0, smpServerRoleAll⟩,
    ⟨"smp12.simplex.im", "UkMFNAXLXeAAe0beCa4w6X_zp18PwxSaSjY17BKUGXQ=", 0, smpServerRoleAll⟩,
    ⟨"smp14.simplex.im", "enEkec4hlR3UtKx2NMpOUK_K4ZuDxjWBO1d9Y4YXVaA=", 0, smpServerRoleAll⟩,
    ⟨"smp15.simplex.im", "h--vW7ZSkXPeOUpfxlFGgauQmXNFOzGoizak7Ult7cw=", 0, smpServerRoleAll⟩,
    ⟨"smp16.simplex.im", "hejn2gVIqNU6xjtGM3OwQeuk8ZEbDXVJXAlnSBJBWUA=", 0, smpServerRoleAll⟩,
    ⟨"smp17.simplex.im", "ZKe4uxF4Z_aLJJOEsC-Y6hSkXgQS5-oc442JQGkyP8M=", 0, smpServerRoleAll⟩,
    ⟨"smp18.simplex.im", "PtsqghzQKU83kYTlQ1VKg996dW4Cw4x_bvpKmiv8uns=", 0, smpServerRoleAll⟩,
    ⟨"smp19.simplex.im", "N_McQS3F9TGoh4ER0QstUf55kGnNSd-wXfNPZ7HukcM=", 0, smpServerRoleAll⟩,
    ⟨"smp4.simplex.im", "u2dS9sG8nMNURyZwqASV4yROM28Er0luVTx5X1CsMrU=", 0, smpServerRoleAll⟩,
    ⟨"smp5.simplex.im", "hpq7_4gGJiilmz5Rf-CswuU5kZGkm_zOIooSw6yALRg=", 0, smpServerRoleAll⟩,
    ⟨"smp6.simplex.im", "PQUV2eL0t7OStZOoAsPEV2QYWt4-xilbakvGUGOItUo=", 0, smpServerRoleAll⟩,
    ⟨"smp1.simplexonflux.com", "xQW_ufMkGE20UrTlBl8QqceG1tbuylXhr9VOLPyRJmw=", 1,
      smpServerRoleAll⟩,
    ⟨"smp2.simplexonflux.com", "LDnWZVlAUInmjmdpQQoIo6FUinRXGe0q3zi5okXDE4s=", 1,
      smpServerRoleAll⟩,
    ⟨"smp3.simplexonflux.com", "1jne379u7IDJSxAvXbWb_JgoE7iabcslX0LBF22Rej0=", 1,
      smpServerRoleAll⟩,
    ⟨"smp4.simplexonflux.com", "xmAmqj75I9mWrUihLUlI0ZuNLXlIwFIlHRq5Pb6cHAU=", 1,
      smpServerRoleAll⟩,
    ⟨"smp5.simplexonflux.com", "rWvBYyTamuRCBYb_KAn-nsejg879ndhiTg5Sq3k0xWA=", 1,
      smpServerRoleAll⟩,
    ⟨"smp6.simplexonflux.com", "PN7-uqLBToqlf1NxHEaiL35lV2vBpXq8Nj8BW11bU48=", 1,
      smpServerRoleAll⟩,
    ⟨"smp.simplego.dev", "r45Jpaq2qnuZCMS4aRvppt7yCz3cj0Ha-6LUOKpfhNM=", 2, smpServerRoleAll⟩]

/-- `DEFAULT_ACTIVE_INDEX`. -/
def defaultActiveIndex : ℤ := serverPresets.length - 1

/-- `decode_preset`: the entry, and whether the fingerprint gave 32 bytes. -/
def decodePreset (p : ServerPreset) : ServerEntry × Bool :=
  let (decLen, hash) := base64urlDecode (asciiBytes p.fingerprintB64) 32
  ({ host := strncpy 63 (asciiBytes p.host)
     port := 5223
     keyHash := overwrite (zeroBytes 32) hash
     op := p.op
     roles := p.roles
     enabled := 1
     preset := 1 }, decLen == 32)

/-- The characters of a string literal. -/
theorem asciiBytes_ofList (text : List Char) :
    asciiBytes (String.ofList text) = text.map fun c => UInt8.ofNat c.toNat := by
  rw [asciiBytes, String.toList_ofList]

set_option maxRecDepth 8192 in
/-- The fingerprints are 43 characters of the table and a padding. -/
theorem serverPresets_fingerprint : ∀ p ∈ serverPresets, ∃ text : List Char,
    p.fingerprintB64 = String.ofList text ∧
      let s := trimEnd [0x3D, 0x20, 0x0A] (text.map fun c => UInt8.ofNat c.toNat)
      s.length = 43 ∧ ∀ c ∈ s, (base64Value c).isSome = true := by
  intro p hp
  fin_cases hp <;> exact ⟨_, rfl, by decide⟩

/-- Every preset is decoded. -/
theorem decodePreset_ok {p : ServerPreset} (hp : p ∈ serverPresets) :
    (decodePreset p).2 = true := by
  obtain ⟨text, htext, hlen, hchars⟩ := serverPresets_fingerprint p hp
  rw [← asciiBytes_ofList, ← htext] at hlen hchars
  have hdec := base64urlDecode_of_chars hchars (show _ ≤ 32 by rw [hlen])
  rw [hlen] at hdec
  rw [decodePreset, ← Prod.mk.eta (p := base64urlDecode _ _), hdec]
  rfl

/-! ### The device -/

/-- The variables of the module, and NVS. An entry at `count` or above is unused. -/
structure ServerDevice where
  nvs : ServerNvs
  initialized : Bool
  servers : ℕ → ServerEntry
  count : ℕ
  active : ℤ

/-- Which NVS reads and writes of an initialisation succeed. A list is also not read when its
buffer cannot be allocated. -/
structure InitCalls where
  readsList : Bool
  readsIndex : Bool
  savesList : Bool
  savesIndex : Bool

/-- The number of entries of a stored list that can be used: it is at least a header and fits the
buffer, has the version, at most 32 entries, and all of them. -/
def storedCount (nvs : ServerNvs) : Option ℕ :=
  match nvs .srvList with
  | none => none
  | some buf =>
    let count := (buf.getD 1 0).toNat
    if buf.length < 4 ∨ 4 + ServerEntry.size * maxSmpServers < buf.length then none
    else if buf.getD 0 0 ≠ srvNvsVersion then none
    else if maxSmpServers < count then none
    else if buf.length < 4 + ServerEntry.size * count then none
    else some count

namespace ServerDevice

variable (dev : ServerDevice)

/-- The device after a power-up: the variables have their initial values. -/
def start (nvs : ServerNvs) : ServerDevice where
  nvs := nvs
  initialized := false
  servers := fun _ => .zero
  count := 0
  active := defaultActiveIndex

/-- `load_servers_from_nvs`. -/
def loadServersFromNvs (readsList : Bool) : Option ServerDevice :=
  match if readsList then storedCount dev.nvs else none with
  | none => none
  | some count =>
    let buf := (dev.nvs .srvList).getD []
    some { dev with
      servers := fun i =>
        if i < count then ServerEntry.decode (buf.drop (4 + ServerEntry.size * i))
        else dev.servers i
      count := count }

/-- The blob of the list. -/
def listBlob : List UInt8 :=
  [srvNvsVersion, UInt8.ofNat dev.count, 0, 0] ++
    (List.range dev.count).flatMap fun i => (dev.servers i).encode

/-- `save_servers_to_nvs`; a failing allocation or write leaves the old blob. -/
def saveServersToNvs (saves : Bool) : ServerDevice :=
  if saves then { dev with nvs := dev.nvs.put .srvList dev.listBlob } else dev

/-- `load_active_index`. -/
def loadActiveIndex (readsIndex : Bool) : ServerDevice :=
  match if readsIndex then dev.nvs .activeSrv else none with
  | some [idx] =>
    { dev with
      active := if idx < UInt8.ofNat dev.count then (idx.toNat : ℤ) else defaultActiveIndex }
  | _ => { dev with active := defaultActiveIndex }

/-- `save_active_index`. -/
def saveActiveIndex (saves : Bool) : ServerDevice :=
  if saves then { dev with nvs := dev.nvs.put .activeSrv [UInt8.ofInt dev.active] } else dev

/-- One pass of the loop over the presets. -/
def addPreset (p : ServerPreset) : ServerDevice :=
  if dev.count < maxSmpServers then
    let (entry, ok) := decodePreset p
    { dev with
      servers := Function.update dev.servers dev.count entry
      count := if ok then dev.count + 1 else dev.count }
  else dev

/-- The first boot: the list is made of the presets. -/
def initPresets : ServerDevice :=
  let dev := serverPresets.foldl addPreset { dev with count := 0 }
  { dev with active := dev.count - 1 }

/-- `smp_servers_init`. -/
def smpServersInit (calls : InitCalls) : ServerDevice :=
  if dev.initialized then dev
  else match dev.loadServersFromNvs calls.readsList with
  | some dev => { dev.loadActiveIndex calls.readsIndex with initialized := true }
  | none =>
    { (dev.initPresets.saveServersToNvs calls.savesList).saveActiveIndex calls.savesIndex with
      initialized := true }

/-- `smp_servers_get_active`. -/
def smpServersGetActive : Option ServerEntry :=
  if dev.active < 0 ∨ dev.count ≤ dev.active then none else some (dev.servers dev.active.toNat)

/-- `smp_servers_set_active`. -/
def smpServersSetActive (index : ℤ) (saves : Bool) : ServerDevice :=
  if index < 0 ∨ dev.count ≤ index then dev
  else ({ dev with active := index }).saveActiveIndex saves

/-- `smp_servers_add_custom`. -/
def smpServersAddCustom (host : List UInt8) (port : UInt16) (keyHash : Bytes 32) (saves : Bool) :
    ServerDevice × ℤ :=
  if maxSmpServers ≤ dev.count then (dev, -1)
  else
    let entry : ServerEntry :=
      { host := strncpy 63 host
        port := port
        keyHash := keyHash
        op := smpOpCustom
        roles := smpServerRoleAll
        enabled := 1
        preset := 0 }
    (({ dev with
      servers := Function.update dev.servers dev.count entry
      count := dev.count + 1 }).saveServersToNvs saves, dev.count)

end ServerDevice

/-- A call of the module, or a reboot. -/
inductive ServerStep where
  | init (calls : InitCalls)
  | setActive (index : ℤ) (saves : Bool)
  | addCustom (host : List UInt8) (port : UInt16) (keyHash : Bytes 32) (saves : Bool)
  | reboot

namespace ServerDevice

/-- The device after a step. -/
def step (dev : ServerDevice) : ServerStep → ServerDevice
  | .init calls => dev.smpServersInit calls
  | .setActive index saves => dev.smpServersSetActive index saves
  | .addCustom host port keyHash saves => (dev.smpServersAddCustom host port keyHash saves).1
  | .reboot => start dev.nvs

/-- After the initialisation the active index designates an entry, which
`smp_servers_get_active` returns. -/
def ActiveValid (dev : ServerDevice) : Prop :=
  dev.initialized = true → 0 ≤ dev.active ∧ dev.active < dev.count ∧
    dev.smpServersGetActive = some (dev.servers dev.active.toNat)

instance (dev : ServerDevice) : Decidable dev.ActiveValid :=
  inferInstanceAs (Decidable (dev.initialized = true → _))

end ServerDevice

/-- When a step leaves a valid index. An initialisation that loads a list finds more than 20
entries in it, or loads a stored index below their number. -/
def ServerStep.KeepsActive (dev : ServerDevice) : ServerStep → Prop
  | .init calls => dev.initialized = false → calls.readsList = true →
      ∀ count, storedCount dev.nvs = some count → defaultActiveIndex < count ∨
        calls.readsIndex = true ∧ ∃ idx, dev.nvs .activeSrv = some [idx] ∧ idx.toNat < count
  | _ => True

/-! ### The list after an initialisation -/

/-- A stored list that can be used has at most 32 entries. -/
theorem storedCount_le {nvs : ServerNvs} {count : ℕ} (h : storedCount nvs = some count) :
    count ≤ maxSmpServers := by
  unfold storedCount at h
  split at h
  · cases h
  · dsimp only at h
    split_ifs at h with _ _ hmax
    cases h
    exact Nat.le_of_not_lt hmax

namespace ServerDevice

/-- The presets are added one by one while there is room. -/
theorem foldl_addPreset_count {presets : List ServerPreset}
    (hok : ∀ p ∈ presets, (decodePreset p).2 = true) (dev : ServerDevice)
    (hroom : dev.count + presets.length ≤ maxSmpServers) :
    (presets.foldl addPreset dev).count = dev.count + presets.length := by
  induction presets generalizing dev with
  | nil => rfl
  | cons p presets ih =>
    rw [List.length_cons] at hroom
    have hcount : (dev.addPreset p).count = dev.count + 1 := by
      rw [addPreset, if_pos (by omega)]
      exact if_pos (hok p List.mem_cons_self)
    rw [List.foldl_cons, ih (fun q hq => hok q (List.mem_cons_of_mem _ hq)) _ (by omega), hcount,
      List.length_cons]
    omega

/-- There is room for all presets, and all of them are decoded. -/
theorem foldl_serverPresets_count (dev : ServerDevice) (hcount : dev.count = 0) :
    (serverPresets.foldl addPreset dev).count = 21 := by
  have hlength : serverPresets.length = 21 := rfl
  have hfold := foldl_addPreset_count (fun _ hp => decodePreset_ok hp) dev
    (by rw [hcount, hlength]; decide)
  rw [hfold, hcount, hlength]

/-- On the first boot the list has all presets, and the last one is active. -/
theorem initPresets_eq (dev : ServerDevice) :
    dev.initPresets.count = 21 ∧ dev.initPresets.active = defaultActiveIndex := by
  have hcount := foldl_serverPresets_count { dev with count := 0 } rfl
  simp only [initPresets, hcount]
  exact ⟨trivial, rfl⟩

/-- The loop over the presets does not write NVS. -/
theorem foldl_addPreset_nvs (presets : List ServerPreset) (dev : ServerDevice) :
    (presets.foldl addPreset dev).nvs = dev.nvs := by
  induction presets generalizing dev with
  | nil => rfl
  | cons p presets ih =>
    have hpreset : (dev.addPreset p).nvs = dev.nvs := by
      rw [addPreset]
      split <;> rfl
    rw [List.foldl_cons, ih, hpreset]

@[simp] theorem initPresets_nvs (dev : ServerDevice) : dev.initPresets.nvs = dev.nvs := by
  simp only [initPresets, foldl_addPreset_nvs]

@[simp] theorem saveServersToNvs_count (dev : ServerDevice) (saves : Bool) :
    (dev.saveServersToNvs saves).count = dev.count := by
  cases saves <;> rfl

@[simp] theorem saveServersToNvs_active (dev : ServerDevice) (saves : Bool) :
    (dev.saveServersToNvs saves).active = dev.active := by
  cases saves <;> rfl

@[simp] theorem saveServersToNvs_initialized (dev : ServerDevice) (saves : Bool) :
    (dev.saveServersToNvs saves).initialized = dev.initialized := by
  cases saves <;> rfl

@[simp] theorem saveActiveIndex_count (dev : ServerDevice) (saves : Bool) :
    (dev.saveActiveIndex saves).count = dev.count := by
  cases saves <;> rfl

@[simp] theorem saveActiveIndex_active (dev : ServerDevice) (saves : Bool) :
    (dev.saveActiveIndex saves).active = dev.active := by
  cases saves <;> rfl

@[simp] theorem saveActiveIndex_initialized (dev : ServerDevice) (saves : Bool) :
    (dev.saveActiveIndex saves).initialized = dev.initialized := by
  cases saves <;> rfl

@[simp] theorem loadActiveIndex_count (dev : ServerDevice) (readsIndex : Bool) :
    (dev.loadActiveIndex readsIndex).count = dev.count := by
  unfold loadActiveIndex
  split <;> rfl

@[simp] theorem loadActiveIndex_nvs (dev : ServerDevice) (readsIndex : Bool) :
    (dev.loadActiveIndex readsIndex).nvs = dev.nvs := by
  unfold loadActiveIndex
  split <;> rfl

/-- A loaded list has the stored number of entries, and leaves NVS as it is. -/
theorem loadServersFromNvs_eq_some {dev dev' : ServerDevice} {readsList : Bool}
    (h : dev.loadServersFromNvs readsList = some dev') :
    readsList = true ∧ storedCount dev.nvs = some dev'.count ∧ dev'.nvs = dev.nvs := by
  unfold loadServersFromNvs at h
  cases readsList with
  | false => cases h
  | true =>
    rw [if_pos rfl] at h
    split at h
    · cases h
    · rename_i count hcount
      cases h
      exact ⟨rfl, hcount, rfl⟩

/-- No list is loaded if none is read or none can be used. -/
theorem loadServersFromNvs_eq_none {dev : ServerDevice} {readsList : Bool}
    (h : dev.loadServersFromNvs readsList = none) :
    readsList = true → storedCount dev.nvs = none := by
  rintro rfl
  rw [loadServersFromNvs, if_pos rfl] at h
  split at h
  · assumption
  · cases h

/-- The loaded index is in range exactly if the stored one is, or the default is. -/
theorem loadActiveIndex_active_lt {dev : ServerDevice} (hcount : dev.count ≤ maxSmpServers)
    (readsIndex : Bool) :
    (dev.loadActiveIndex readsIndex).active < dev.count ↔ defaultActiveIndex < dev.count ∨
      readsIndex = true ∧ ∃ idx, dev.nvs .activeSrv = some [idx] ∧ idx.toNat < dev.count := by
  have hbyte : ∀ idx : UInt8, idx < UInt8.ofNat dev.count ↔ idx.toNat < dev.count := by
    intro idx
    have hlt : dev.count < 2 ^ 8 := lt_of_le_of_lt hcount (by decide)
    rw [UInt8.lt_iff_toNat_lt, UInt8.toNat_ofNat_of_lt' hlt]
  cases readsIndex with
  | false => simp [loadActiveIndex]
  | true =>
    unfold loadActiveIndex
    rw [if_pos rfl]
    split
    · rename_i idx hidx
      by_cases hlt : idx.toNat < dev.count
      · simp [hbyte, hlt, hidx]
      · simp [hbyte, hlt, hidx]
    · rename_i hnone
      have hstored : ∀ idx, dev.nvs .activeSrv ≠ some [idx] := fun idx h => hnone idx h
      simp [hstored]

/-- The loaded index is not negative. -/
theorem loadActiveIndex_active_nonneg (dev : ServerDevice) (readsIndex : Bool) :
    0 ≤ (dev.loadActiveIndex readsIndex).active := by
  have hdefault : 0 ≤ defaultActiveIndex := by decide
  unfold loadActiveIndex
  split
  · dsimp only
    split_ifs
    · exact Int.natCast_nonneg _
    · exact hdefault
  · exact hdefault

/-- An index in range is enough: the entry is then returned. -/
theorem activeValid_iff (dev : ServerDevice) :
    dev.ActiveValid ↔ (dev.initialized = true → 0 ≤ dev.active ∧ dev.active < dev.count) := by
  constructor
  · intro h hinit
    exact ⟨(h hinit).1, (h hinit).2.1⟩
  · intro h hinit
    obtain ⟨hnonneg, hlt⟩ := h hinit
    refine ⟨hnonneg, hlt, ?_⟩
    rw [smpServersGetActive, if_neg (by omega)]

end ServerDevice

/-! ### Saving and loading a list -/

namespace ServerDevice

/-- The memory of an entry stands at its place behind the header. -/
theorem listBlob_drop (dev : ServerDevice) {i : ℕ} (hi : i < dev.count) :
    ∃ rest, dev.listBlob.drop (4 + ServerEntry.size * i) = (dev.servers i).encode ++ rest := by
  have hlength : i < (List.range dev.count).length := by rwa [List.length_range]
  have hdrop := drop_flatMap (fun j => (dev.servers j).encode_length) hlength
  rw [List.getElem_range] at hdrop
  rw [← List.drop_drop]
  exact ⟨_, hdrop⟩

/-- The blob of a list is a header and its entries. -/
theorem listBlob_length (dev : ServerDevice) :
    dev.listBlob.length = 4 + ServerEntry.size * dev.count := by
  rw [listBlob, List.length_append, length_flatMap fun j => (dev.servers j).encode_length,
    List.length_range]
  rfl

/-- A successful save stores the blob. -/
theorem saveServersToNvs_srvList (dev : ServerDevice) :
    (dev.saveServersToNvs true).nvs .srvList = some dev.listBlob := by
  rw [saveServersToNvs, if_pos rfl]
  exact Store.put_self dev.nvs .srvList dev.listBlob

/-- A saved list can be used. -/
theorem storedCount_saveServersToNvs {dev : ServerDevice} (hcount : dev.count ≤ maxSmpServers) :
    storedCount (dev.saveServersToNvs true).nvs = some dev.count := by
  have hbyte : (dev.listBlob.getD 1 0).toNat = dev.count := by
    have hlt : dev.count < 2 ^ 8 := lt_of_le_of_lt hcount (by decide)
    exact UInt8.toNat_ofNat_of_lt' hlt
  have hversion : dev.listBlob.getD 0 0 = srvNvsVersion := rfl
  have hroom := Nat.mul_le_mul_left ServerEntry.size hcount
  unfold storedCount
  rw [saveServersToNvs_srvList]
  dsimp only
  rw [hbyte, dev.listBlob_length, if_neg (by omega), if_neg (not_not.mpr hversion),
    if_neg (Nat.not_lt.mpr hcount), if_neg (Nat.lt_irrefl _)]

/-- A list that can be used is loaded, entry by entry. -/
theorem loadServersFromNvs_of_storedCount {dev : ServerDevice} {count : ℕ}
    (hstored : storedCount dev.nvs = some count) :
    ∃ loaded, dev.loadServersFromNvs true = some loaded ∧ loaded.count = count ∧
      ∀ i < count, loaded.servers i =
        .decode (((dev.nvs .srvList).getD []).drop (4 + ServerEntry.size * i)) := by
  rw [loadServersFromNvs, if_pos rfl, hstored]
  exact ⟨_, rfl, rfl, fun i hi => if_pos hi⟩

/-- A saved list is loaded back after a reboot. -/
theorem load_saveServersToNvs {dev : ServerDevice} (hcount : dev.count ≤ maxSmpServers) :
    ∃ loaded, (start (dev.saveServersToNvs true).nvs).loadServersFromNvs true = some loaded ∧
      loaded.count = dev.count ∧ ∀ i < dev.count, loaded.servers i = dev.servers i := by
  have hstored : storedCount (start (dev.saveServersToNvs true).nvs).nvs = some dev.count :=
    storedCount_saveServersToNvs hcount
  obtain ⟨loaded, hload, hloaded, hservers⟩ := loadServersFromNvs_of_storedCount hstored
  refine ⟨loaded, hload, hloaded, fun i hi => ?_⟩
  obtain ⟨rest, hdrop⟩ := dev.listBlob_drop hi
  rw [hservers i hi, start, saveServersToNvs_srvList, Option.getD_some, hdrop,
    ServerEntry.decode_encode]

end ServerDevice

/-! ### One step -/

namespace ServerDevice

/-- Before the initialisation nothing is asked. -/
theorem activeValid_start (nvs : ServerNvs) : (start nvs).ActiveValid := nofun

/-- An initialisation leaves a valid index exactly under its condition. -/
theorem activeValid_init {dev : ServerDevice} (h : dev.ActiveValid) (calls : InitCalls) :
    (dev.step (.init calls)).ActiveValid ↔ ServerStep.KeepsActive dev (.init calls) := by
  cases hinit : dev.initialized with
  | true =>
    have hsame : dev.step (.init calls) = dev := by simp [step, smpServersInit, hinit]
    simp [hsame, h, ServerStep.KeepsActive, hinit]
  | false =>
    rw [activeValid_iff]
    cases hload : dev.loadServersFromNvs calls.readsList with
    | none =>
      -- the presets
      obtain ⟨hcount, hactive⟩ := dev.initPresets_eq
      have hnone := loadServersFromNvs_eq_none hload
      have hright : ServerStep.KeepsActive dev (.init calls) := by
        intro _ hreads count hstored
        rw [hnone hreads] at hstored
        cases hstored
      simp [step, smpServersInit, hinit, hload, hcount, hactive, hright, defaultActiveIndex,
        serverPresets]
    | some loaded =>
      obtain ⟨hreads, hstored, hnvs⟩ := loadServersFromNvs_eq_some hload
      have hlt := loadActiveIndex_active_lt (storedCount_le hstored) calls.readsIndex
      have hnonneg := loaded.loadActiveIndex_active_nonneg calls.readsIndex
      have hstep : dev.step (.init calls) =
          { loaded.loadActiveIndex calls.readsIndex with initialized := true } := by
        simp [step, smpServersInit, hinit, hload]
      rw [hnvs] at hlt
      rw [hstep]
      simp [hnonneg, hlt, ServerStep.KeepsActive, hinit, hreads, hstored]

/-- Choosing an entry leaves a valid index. -/
theorem activeValid_setActive {dev : ServerDevice} (h : dev.ActiveValid) (index : ℤ)
    (saves : Bool) : (dev.step (.setActive index saves)).ActiveValid := by
  by_cases hrange : index < 0 ∨ dev.count ≤ index
  · simpa only [step, smpServersSetActive, if_pos hrange] using h
  · rw [activeValid_iff]
    intro _
    simp only [step, smpServersSetActive, if_neg hrange, saveActiveIndex_active,
      saveActiveIndex_count]
    omega

/-- An added entry leaves a valid index. -/
theorem activeValid_addCustom {dev : ServerDevice} (h : dev.ActiveValid) (host : List UInt8)
    (port : UInt16) (keyHash : Bytes 32) (saves : Bool) :
    (dev.step (.addCustom host port keyHash saves)).ActiveValid := by
  by_cases hfull : maxSmpServers ≤ dev.count
  · simpa only [step, smpServersAddCustom, if_pos hfull] using h
  · rw [activeValid_iff] at h ⊢
    simp only [step, smpServersAddCustom, if_neg hfull, saveServersToNvs_active,
      saveServersToNvs_count, saveServersToNvs_initialized]
    intro hinit
    obtain ⟨hnonneg, hlt⟩ := h hinit
    exact ⟨hnonneg, by omega⟩

/-- A step leaves a valid index exactly under its condition. -/
theorem activeValid_step {dev : ServerDevice} (h : dev.ActiveValid) (a : ServerStep) :
    (dev.step a).ActiveValid ↔ a.KeepsActive dev := by
  cases a with
  | init calls => exact activeValid_init h calls
  | setActive index saves => exact iff_of_true (activeValid_setActive h index saves) trivial
  | addCustom host port keyHash saves =>
    exact iff_of_true (activeValid_addCustom h host port keyHash saves) trivial
  | reboot => exact iff_of_true (activeValid_start dev.nvs) trivial

end ServerDevice

/-! ### Whole runs -/

/-- **Which server is active.** From any NVS, over any calls and reboots with any of their NVS
calls failing, the active index designates at every point after an initialisation an entry that
`smp_servers_get_active` returns, exactly when every initialisation meets its condition. -/
theorem active_server_valid_iff (nvs : ServerNvs) (steps : List ServerStep) :
    (∀ front, front <+: steps →
        (runFrom ServerDevice.step (.start nvs) front).ActiveValid) ↔
      StepsMeet ServerDevice.step (fun dev a => a.KeepsActive dev) (.start nvs) steps := by
  exact forall_prefix_iff_stepsMeet ServerDevice.ActiveValid
    (fun _ a h => ServerDevice.activeValid_step h a) (ServerDevice.activeValid_start nvs) steps

/-- A stored list with one entry and no stored index: the default index is past its end. -/
theorem active_server_past_end :
    let nvs : ServerNvs := Function.update (fun _ => none) .srvList
      (some ([3, 1, 0, 0] ++ ServerEntry.zero.encode))
    let dev := runFrom ServerDevice.step (.start nvs) [.init ⟨true, true, true, true⟩]
    dev.initialized = true ∧ dev.count = 1 ∧ dev.active = 20 ∧ dev.smpServersGetActive = none ∧
      ¬ dev.ActiveValid := by
  decide

/-! ### Lists that are long enough -/

/-- No usable list is stored that is shorter than the presets, and the list in RAM, once it is
there, is not shorter either. -/
structure ServerDevice.Long (dev : ServerDevice) : Prop where
  stored : ∀ count, storedCount dev.nvs = some count → defaultActiveIndex < count
  loaded : dev.initialized = true → defaultActiveIndex < dev.count
  count_le : dev.count ≤ maxSmpServers

/-- Entries are added after the initialisation. -/
def ServerStep.AddsInitialized (dev : ServerDevice) : ServerStep → Prop
  | .addCustom .. => dev.initialized = true
  | _ => True

namespace ServerDevice

/-- What is saved is not shorter than what is in RAM. -/
theorem storedCount_of_save {dev : ServerDevice} {saves : Bool} {count : ℕ}
    (hcount : dev.count ≤ maxSmpServers)
    (h : storedCount (dev.saveServersToNvs saves).nvs = some count) :
    count = dev.count ∨ storedCount dev.nvs = some count := by
  cases saves with
  | false => exact Or.inr h
  | true =>
    rw [storedCount_saveServersToNvs hcount] at h
    exact Or.inl (Option.some.inj h).symm

/-- The index has a key of its own. -/
theorem storedCount_saveActiveIndex (dev : ServerDevice) (saves : Bool) :
    storedCount (dev.saveActiveIndex saves).nvs = storedCount dev.nvs := by
  cases saves with
  | false => rfl
  | true =>
    have hkey : (dev.saveActiveIndex true).nvs .srvList = dev.nvs .srvList := by
      rw [saveActiveIndex, if_pos rfl]
      exact Store.put_of_ne dev.nvs [UInt8.ofInt dev.active]
        (show ServerKey.srvList ≠ .activeSrv by decide)
    rw [storedCount, hkey, storedCount]

/-- An initialisation keeps the lists long. -/
theorem Long.init {dev : ServerDevice} (h : dev.Long) (calls : InitCalls) :
    (dev.smpServersInit calls).Long := by
  unfold smpServersInit
  split_ifs
  · exact h
  · cases hload : dev.loadServersFromNvs calls.readsList with
    | some loaded =>
      obtain ⟨-, hstored, hnvs⟩ := loadServersFromNvs_eq_some hload
      have hlong := h.stored _ hstored
      refine ⟨?_, fun _ => ?_, ?_⟩
      · intro count hcount
        rw [loadActiveIndex_nvs, hnvs] at hcount
        exact h.stored count hcount
      · simpa only [loadActiveIndex_count] using hlong
      · simpa only [loadActiveIndex_count] using storedCount_le hstored
    | none =>
      obtain ⟨hcount, -⟩ := dev.initPresets_eq
      have hlong : defaultActiveIndex < dev.initPresets.count := by
        rw [hcount]
        decide
      have hle : dev.initPresets.count ≤ maxSmpServers := by
        rw [hcount]
        decide
      have hkept : ((dev.initPresets.saveServersToNvs calls.savesList).saveActiveIndex
          calls.savesIndex).count = dev.initPresets.count := by
        rw [saveActiveIndex_count, saveServersToNvs_count]
      dsimp only
      refine ⟨?_, fun _ => ?_, ?_⟩
      · intro count hstored
        rw [storedCount_saveActiveIndex] at hstored
        rcases storedCount_of_save hle hstored with hnew | hold
        · rwa [hnew]
        · rw [initPresets_nvs] at hold
          exact h.stored count hold
      · rw [← hkept] at hlong
        exact hlong
      · rw [← hkept] at hle
        exact hle

/-- Every step keeps the lists long. -/
theorem Long.step {dev : ServerDevice} (h : dev.Long) (a : ServerStep)
    (ha : a.AddsInitialized dev) : (dev.step a).Long := by
  cases a with
  | init calls => exact h.init calls
  | setActive index saves =>
    by_cases hrange : index < 0 ∨ dev.count ≤ index
    · simpa only [ServerDevice.step, smpServersSetActive, if_pos hrange] using h
    · simp only [ServerDevice.step, smpServersSetActive, if_neg hrange]
      refine ⟨?_, ?_, ?_⟩
      · rw [storedCount_saveActiveIndex]
        exact h.stored
      · simpa only [saveActiveIndex_initialized, saveActiveIndex_count] using h.loaded
      · simpa only [saveActiveIndex_count] using h.count_le
  | addCustom host port keyHash saves =>
    by_cases hfull : maxSmpServers ≤ dev.count
    · simpa only [ServerDevice.step, smpServersAddCustom, if_pos hfull] using h
    · have hlong : defaultActiveIndex < dev.count := h.loaded ha
      simp only [ServerDevice.step, smpServersAddCustom, if_neg hfull]
      refine ⟨?_, fun _ => ?_, ?_⟩
      · intro count hstored
        rcases storedCount_of_save (by dsimp only; omega) hstored with rfl | hold
        · dsimp only
          omega
        · exact h.stored count hold
      · simp only [saveServersToNvs_count]
        omega
      · simp only [saveServersToNvs_count]
        omega
  | reboot => exact ⟨h.stored, nofun, Nat.zero_le _⟩

end ServerDevice

/-- A device whose stored list, if it can be used at all, is as long as the presets has a valid
active entry at every point after an initialisation, whatever is stored as its index. -/
theorem active_server_valid_of_long {nvs : ServerNvs}
    (hstored : ∀ count, storedCount nvs = some count → defaultActiveIndex < count)
    (steps : List ServerStep)
    (hsteps : StepsMeet ServerDevice.step (fun dev a => a.AddsInitialized dev) (.start nvs) steps) :
    (runFrom ServerDevice.step (.start nvs) steps).ActiveValid := by
  have hlong : (ServerDevice.start nvs).Long := ⟨hstored, nofun, Nat.zero_le _⟩
  have hkeeps :
      StepsMeet ServerDevice.step (fun dev a => a.KeepsActive dev) (.start nvs) steps := by
    have hstep : ∀ (dev : ServerDevice) (a : ServerStep), dev.Long → a.AddsInitialized dev →
        (dev.step a).Long := fun _ a h ha => h.step a ha
    refine hsteps.invariant_step hstep ?_ hlong
    intro dev a h _
    cases a with
    | init calls => exact fun _ _ count hcount => Or.inl (h.stored count hcount)
    | _ => trivial
  exact hkeeps.invariant (fun dev a h ha => (ServerDevice.activeValid_step h a).mpr ha)
    (ServerDevice.activeValid_start nvs)

end SimpleGo
