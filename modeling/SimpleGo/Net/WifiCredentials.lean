import SimpleGo.Lib.Runs
import SimpleGo.Lib.Store

/-!
# The stored WiFi credentials

The network name and the password are two strings in NVS. A save writes the name, and then the
password if there is one; a load reads the name, and then whatever password is stored. Beside the
store the pair of the last save or forget that succeeded is recorded. `nvs_set_str` and
`nvs_erase_key` write at once, so the commit has nothing left to write.
-/

namespace SimpleGo

open Lib

/-- The keys `NVS_KEY_SSID` and `NVS_KEY_PASS`. -/
inductive WifiKey where
  | ssid
  | pass
  deriving DecidableEq

/-- The NVS namespace of the WiFi manager. A namespace that does not exist has no keys. -/
abbrev WifiNvs := Store WifiKey (List UInt8)

/-- A network name and a password. -/
@[ext] structure WifiNetwork where
  ssid : List UInt8
  password : List UInt8
  deriving DecidableEq

/-- What can be saved: C strings, a name of 1 to 32 bytes and a password of at most 63. An open
network has an empty password. -/
structure WifiCredentials extends WifiNetwork where
  ssid_ne_nil : ssid ≠ []
  ssid_length_le : ssid.length ≤ 32
  zero_notMem_ssid : 0 ∉ ssid
  password_length_le : password.length ≤ 63
  zero_notMem_password : 0 ∉ password

/-! ### The functions -/

/-- `nvs_get_str`: the string and its terminator must fit the buffer. -/
def nvsGetStr (nvs : WifiNvs) (key : WifiKey) (size : ℕ) : Option (List UInt8) :=
  (nvs key).filter fun s => s.length + 1 ≤ size

/-- The password that a load finds: an empty one where there is none, or none that fits. -/
def loadedPassword (nvs : WifiNvs) : List UInt8 := (nvsGetStr nvs .pass 64).getD []

/-- `wifi_manager_load_credentials`. -/
def loadCredentials (nvs : WifiNvs) : Option WifiNetwork :=
  match nvsGetStr nvs .ssid 33 with
  | none => none
  | some ssid => if ssid.length + 1 > 1 then some ⟨ssid, loadedPassword nvs⟩ else none

/-- Which NVS calls of a save succeed. -/
structure SaveCalls where
  opens : Bool
  setsSsid : Bool
  setsPass : Bool

/-- `wifi_manager_save_credentials`. -/
def saveCredentials (nvs : WifiNvs) (network : WifiNetwork) (calls : SaveCalls) :
    Bool × WifiNvs :=
  if !calls.opens then (false, nvs)
  else if !calls.setsSsid then (false, nvs)
  else
    let nvs := nvs.put .ssid network.ssid
    if network.password ≠ [] then
      if calls.setsPass then (true, nvs.put .pass network.password) else (false, nvs)
    else (true, nvs)

/-- Which NVS calls of a forget succeed. -/
structure ForgetCalls where
  opens : Bool
  erasesSsid : Bool
  erasesPass : Bool

/-- `wifi_manager_forget_network`: what the erasures return is not looked at. -/
def forgetNetwork (nvs : WifiNvs) (calls : ForgetCalls) : Bool × WifiNvs :=
  if !calls.opens then (false, nvs)
  else
    let nvs := if calls.erasesSsid then nvs.erase .ssid else nvs
    (true, if calls.erasesPass then nvs.erase .pass else nvs)

/-! ### Runs -/

/-- The store, and the pair of the last save that succeeded; none after a forget. -/
structure WifiStore where
  nvs : WifiNvs
  last : Option WifiNetwork

/-- A save or a forget. -/
inductive WifiStep where
  | save (network : WifiCredentials) (calls : SaveCalls)
  | forget (calls : ForgetCalls)

namespace WifiStore

/-- Any store; what it holds counts as saved. -/
def start (nvs : WifiNvs) : WifiStore := ⟨nvs, loadCredentials nvs⟩

/-- The store after a step. -/
def step (s : WifiStore) : WifiStep → WifiStore
  | .save network calls =>
    let (ok, nvs) := saveCredentials s.nvs network.toWifiNetwork calls
    ⟨nvs, if ok then some network.toWifiNetwork else s.last⟩
  | .forget calls =>
    let (ok, nvs) := forgetNetwork s.nvs calls
    ⟨nvs, if ok then none else s.last⟩

/-- A load gives the pair of the last successful save, and nothing after a forget. -/
def LoadsLast (s : WifiStore) : Prop := loadCredentials s.nvs = s.last

instance (s : WifiStore) : Decidable s.LoadsLast :=
  inferInstanceAs (Decidable (loadCredentials s.nvs = s.last))

end WifiStore

/-- No string is stored, or one that cannot be used: it is empty or does not fit the buffer. -/
def NoneUsable (nvs : WifiNvs) (key : WifiKey) (size : ℕ) : Prop :=
  ∀ str, nvs key = some str → str = [] ∨ size ≤ str.length

/-- When a step leaves the right pair. An open network is saved while no usable password is
stored. If the name is written and the password is not, the name is the stored one. A forget
erases the name, if there is a usable one. -/
def WifiStep.KeepsPair (s : WifiStore) : WifiStep → Prop
  | .save network calls => calls.opens = true → calls.setsSsid = true →
      if network.password = [] then NoneUsable s.nvs .pass 64
      else calls.setsPass = true ∨ s.nvs .ssid = some network.ssid
  | .forget calls => calls.opens = true → calls.erasesSsid = true ∨ NoneUsable s.nvs .ssid 33

/-! ### What a load gives -/

/-- A string that fits the buffer is read. -/
theorem nvsGetStr_of_length_lt {nvs : WifiNvs} {key : WifiKey} {size : ℕ} {str : List UInt8}
    (hstr : nvs key = some str) (hlt : str.length < size) : nvsGetStr nvs key size = some str := by
  rw [nvsGetStr, hstr, Option.filter_some, if_pos (decide_eq_true (Nat.succ_le_of_lt hlt))]

/-- What is read is stored, and fits the buffer. -/
theorem nvsGetStr_eq_some {nvs : WifiNvs} {key : WifiKey} {size : ℕ} {str : List UInt8} :
    nvsGetStr nvs key size = some str ↔ nvs key = some str ∧ str.length < size := by
  rw [nvsGetStr, Option.filter_eq_some_iff, decide_eq_true_iff, Nat.succ_le_iff]

/-- Without a usable string, what is read is nothing or empty. -/
theorem noneUsable_iff {nvs : WifiNvs} {key : WifiKey} {size : ℕ} :
    NoneUsable nvs key size ↔ ∀ str, nvsGetStr nvs key size = some str → str = [] := by
  constructor
  · intro h str hget
    obtain ⟨hstr, hlt⟩ := nvsGetStr_eq_some.mp hget
    exact (h str hstr).resolve_right (Nat.not_le_of_lt hlt)
  · intro h str hstr
    rcases Nat.lt_or_ge str.length size with hlt | hge
    · exact Or.inl (h str (nvsGetStr_of_length_lt hstr hlt))
    · exact Or.inr hge

/-- An empty password is loaded exactly when no usable one is stored. -/
theorem loadedPassword_eq_nil_iff {nvs : WifiNvs} :
    loadedPassword nvs = [] ↔ NoneUsable nvs .pass 64 := by
  rw [noneUsable_iff, loadedPassword]
  cases nvsGetStr nvs .pass 64 <;> simp

/-- Nothing is loaded exactly when no usable name is stored. -/
theorem loadCredentials_eq_none_iff {nvs : WifiNvs} :
    loadCredentials nvs = none ↔ NoneUsable nvs .ssid 33 := by
  rw [noneUsable_iff, loadCredentials]
  cases nvsGetStr nvs .ssid 33 <;> simp [List.length_pos_iff]

/-- A usable name is loaded with the password that is loaded. -/
theorem loadCredentials_of_ssid {nvs : WifiNvs} {ssid : List UInt8} (hssid : nvs .ssid = some ssid)
    (hne : ssid ≠ []) (hle : ssid.length ≤ 32) :
    loadCredentials nvs = some ⟨ssid, loadedPassword nvs⟩ := by
  have hget := nvsGetStr_of_length_lt hssid (Nat.lt_succ_of_le hle)
  have hpos : ssid.length + 1 > 1 := Nat.succ_lt_succ (List.length_pos_iff.mpr hne)
  rw [loadCredentials, hget]
  exact if_pos hpos

/-- What is loaded is the stored name with the password that is loaded. -/
theorem loadCredentials_eq_some {nvs : WifiNvs} {network : WifiNetwork}
    (h : loadCredentials nvs = some network) :
    nvs .ssid = some network.ssid ∧ network.password = loadedPassword nvs := by
  unfold loadCredentials at h
  split at h
  · cases h
  · rename_i ssid hget
    split at h
    · cases h
      exact ⟨(nvsGetStr_eq_some.mp hget).1, rfl⟩
    · cases h

/-- Writing the name leaves the password. -/
theorem loadedPassword_put_ssid (nvs : WifiNvs) (ssid : List UInt8) :
    loadedPassword (nvs.put .ssid ssid) = loadedPassword nvs := by
  rw [loadedPassword, nvsGetStr, Store.put_of_ne nvs ssid (by decide)]
  rfl

/-- After the name is written, a load gives it with the old password. -/
theorem loadCredentials_put_ssid (nvs : WifiNvs) (network : WifiCredentials) :
    loadCredentials (nvs.put .ssid network.ssid) = some ⟨network.ssid, loadedPassword nvs⟩ := by
  rw [loadCredentials_of_ssid (Store.put_self ..) network.ssid_ne_nil network.ssid_length_le,
    loadedPassword_put_ssid]

/-- After both writes, a load gives the pair. -/
theorem loadCredentials_put_pass (nvs : WifiNvs) (network : WifiCredentials) :
    loadCredentials ((nvs.put .ssid network.ssid).put .pass network.password) =
      some network.toWifiNetwork := by
  have hssid : ((nvs.put .ssid network.ssid).put .pass network.password) .ssid =
      some network.ssid := by
    rw [Store.put_of_ne _ _ (by decide), Store.put_self]
  have hpass : loadedPassword ((nvs.put .ssid network.ssid).put .pass network.password) =
      network.password := by
    rw [loadedPassword, nvsGetStr_of_length_lt (Store.put_self ..)
      (Nat.lt_succ_of_le network.password_length_le)]
    rfl
  rw [loadCredentials_of_ssid hssid network.ssid_ne_nil network.ssid_length_le, hpass]

/-- Forgetting without erasing the name leaves the name. -/
theorem forgetNetwork_ssid {nvs : WifiNvs} {calls : ForgetCalls}
    (hkept : calls.erasesSsid = false) : (forgetNetwork nvs calls).2 .ssid = nvs .ssid := by
  rw [forgetNetwork, hkept]
  split
  · rfl
  · dsimp only
    split
    · exact Store.erase_of_ne nvs (by decide)
    · rfl

/-- Forgetting erases the name if its erasure succeeds. -/
theorem loadCredentials_forgetNetwork {nvs : WifiNvs} {calls : ForgetCalls}
    (hopens : calls.opens = true) :
    loadCredentials (forgetNetwork nvs calls).2 = none ↔
      calls.erasesSsid = true ∨ NoneUsable nvs .ssid 33 := by
  rw [loadCredentials_eq_none_iff]
  cases herases : calls.erasesSsid with
  | true =>
    have hnone : (forgetNetwork nvs calls).2 .ssid = none := by
      cases herasesPass : calls.erasesPass <;>
        simp [forgetNetwork, hopens, herases, herasesPass, Store.erase_of_ne]
    simp [NoneUsable, hnone]
  | false => simp [NoneUsable, forgetNetwork_ssid herases]

/-! ### One step -/

/-- A save leaves the right pair exactly under its condition. -/
theorem WifiStore.loadsLast_step_save {s : WifiStore} (h : s.LoadsLast) (network : WifiCredentials)
    (calls : SaveCalls) :
    (s.step (.save network calls)).LoadsLast ↔ WifiStep.KeepsPair s (.save network calls) := by
  obtain ⟨opens, setsSsid, setsPass⟩ := calls
  rw [WifiStore.LoadsLast] at h
  cases opens with
  | false => simp [WifiStep.KeepsPair, WifiStore.LoadsLast, WifiStore.step, saveCredentials, h]
  | true =>
    cases setsSsid with
    | false => simp [WifiStep.KeepsPair, WifiStore.LoadsLast, WifiStore.step, saveCredentials, h]
    | true =>
      by_cases hopen : network.password = []
      · -- an open network: the stored password stays
        have hload := loadCredentials_put_ssid s.nvs network
        simp [WifiStep.KeepsPair, WifiStore.LoadsLast, WifiStore.step, saveCredentials, hopen,
          hload, ← loadedPassword_eq_nil_iff, WifiNetwork.ext_iff]
      · cases setsPass with
        | true =>
          have hload := loadCredentials_put_pass s.nvs network
          simp [WifiStep.KeepsPair, WifiStore.LoadsLast, WifiStore.step, saveCredentials, hopen,
            hload]
        | false =>
          -- the save fails between the two writes
          have hload := loadCredentials_put_ssid s.nvs network
          have hsame : loadCredentials s.nvs = some ⟨network.ssid, loadedPassword s.nvs⟩ ↔
              s.nvs .ssid = some network.ssid :=
            ⟨fun hsome => (loadCredentials_eq_some hsome).1, fun hssid =>
              loadCredentials_of_ssid hssid network.ssid_ne_nil network.ssid_length_le⟩
          simp [WifiStep.KeepsPair, WifiStore.LoadsLast, WifiStore.step, saveCredentials, hopen,
            hload, ← h, ← hsame, eq_comm]

/-- A forget leaves nothing to load exactly under its condition. -/
theorem WifiStore.loadsLast_step_forget {s : WifiStore} (h : s.LoadsLast) (calls : ForgetCalls) :
    (s.step (.forget calls)).LoadsLast ↔ WifiStep.KeepsPair s (.forget calls) := by
  cases hopens : calls.opens with
  | false =>
    rw [WifiStore.LoadsLast] at h
    simp [WifiStep.KeepsPair, WifiStore.LoadsLast, WifiStore.step, forgetNetwork, hopens, h]
  | true =>
    have hload : loadCredentials (forgetNetwork s.nvs calls).2 = none ↔ _ :=
      loadCredentials_forgetNetwork hopens
    have hok : (forgetNetwork s.nvs calls).1 = true := by simp [forgetNetwork, hopens]
    simp [WifiStep.KeepsPair, WifiStore.LoadsLast, WifiStore.step, hopens, hok, hload]

/-- A step leaves the right pair exactly under its condition. -/
theorem WifiStore.loadsLast_step {s : WifiStore} (h : s.LoadsLast) (a : WifiStep) :
    (s.step a).LoadsLast ↔ a.KeepsPair s := by
  cases a with
  | save network calls => exact loadsLast_step_save h network calls
  | forget calls => exact loadsLast_step_forget h calls

/-! ### Whole runs -/

/-- **Which pair is loaded.** From any store, over any sequence of saves and forgets with any of
their NVS calls failing, a load gives at every point the pair of the last save that succeeded, or
nothing after a forget, exactly when every step meets its condition. -/
theorem wifi_credentials_loaded_iff (nvs : WifiNvs) (steps : List WifiStep) :
    (∀ front, front <+: steps → (runFrom WifiStore.step (.start nvs) front).LoadsLast) ↔
      StepsMeet WifiStore.step (fun s a => a.KeepsPair s) (.start nvs) steps := by
  have hstart : (WifiStore.start nvs).LoadsLast := rfl
  exact forall_prefix_iff_stepsMeet WifiStore.LoadsLast
    (fun _ a h => WifiStore.loadsLast_step h a) hstart steps

/-- A network "home" with the password "key". -/
def homeNetwork : WifiCredentials where
  ssid := [104, 111, 109, 101]
  password := [107, 101, 121]
  ssid_ne_nil := by decide
  ssid_length_le := by decide
  zero_notMem_ssid := by decide
  password_length_le := by decide
  zero_notMem_password := by decide

/-- An open network "cafe". -/
def cafeNetwork : WifiCredentials where
  ssid := [99, 97, 102, 101]
  password := []
  ssid_ne_nil := by decide
  ssid_length_le := by decide
  zero_notMem_ssid := by decide
  password_length_le := by decide
  zero_notMem_password := by decide

/-- Saving an open network after another one succeeds, and its name is then loaded with the
password of the other network. -/
theorem wifi_credentials_mixed :
    let s := runFrom WifiStore.step (.start fun _ => none)
      [.save homeNetwork ⟨true, true, true⟩, .save cafeNetwork ⟨true, true, true⟩]
    s.last = some cafeNetwork.toWifiNetwork ∧
      loadCredentials s.nvs = some ⟨cafeNetwork.ssid, homeNetwork.password⟩ ∧ ¬ s.LoadsLast := by
  decide

end SimpleGo
