import SimpleGo.Contacts.SlotReuse
import SimpleGo.Peer.Connection

/-!
# The handshake entries and the contact slots

The sending side has the handshake entries and the peer queues as they are in the device's RAM
and NVS: its `handshake_set_active` and `peer_load_state` are those of the contact slots.
-/

namespace SimpleGo

open Lib

variable {K : Type}

/-- The handshake entries of a device. -/
def HandshakeArray.ofDevice (dev : ContactDevice K) : HandshakeArray where
  entries := dev.handshakes
  active := dev.activeHandshakeIdx
  stored := fun i => if i < maxContacts then ContactDevice.storedHandshake dev.nvs i else none

/-- The peer queue stored for a slot, whatever is in it. -/
def storedPeerQueue (nvs : Nvs K) (idx : ℕ) : Option PeerQueue :=
  match nvs (peerKey idx) with
  | some (.peer p) => some p
  | _ => none

/-- `peer_load_state` accepts the same records. -/
theorem peerLoadState_eq_filter (nvs : Nvs K) (idx : ℕ) :
    ContactDevice.peerLoadState nvs idx = (storedPeerQueue nvs idx).filter PeerQueue.acceptable := by
  rw [ContactDevice.peerLoadState, storedPeerQueue]
  cases nvs (peerKey idx) with
  | none => rfl
  | some blob =>
    cases blob with
    | peer p => simp [Option.filter_some, PeerQueue.acceptable, and_assoc]
    | _ => rfl

/-- The entry that is saved is the one that is found. -/
theorem storedHandshake_put (nvs : Nvs K) {active : ℕ} (hactive : active < maxContacts)
    (entry : HandshakeEntry) {i : ℕ} (hi : i < maxContacts) :
    ContactDevice.storedHandshake (nvs.put (handKey active) (.handshake entry 1)) i =
      Function.update (ContactDevice.storedHandshake nvs) active (some entry) i := by
  by_cases h : i = active
  · subst h
    rw [Function.update_self, ContactDevice.storedHandshake, Store.put_self]
    rfl
  · rw [Function.update_of_ne h, ContactDevice.storedHandshake, ContactDevice.storedHandshake,
      Store.put_of_ne _ _ (handKey_ne hi hactive h)]

/-- `handshake_save_state` of the two models. -/
theorem ofDevice_handshakeSaveState (dev : ContactDevice K)
    (hactive : dev.activeHandshakeIdx < maxContacts) :
    HandshakeArray.ofDevice dev.handshakeSaveState = (HandshakeArray.ofDevice dev).saveState true := by
  simp only [HandshakeArray.ofDevice, ContactDevice.handshakeSaveState, HandshakeArray.saveState,
    if_true, HandshakeArray.mk.injEq, true_and]
  funext i
  by_cases hi : i < maxContacts
  · rw [if_pos hi, storedHandshake_put dev.nvs hactive _ hi]
    by_cases h : i = dev.activeHandshakeIdx
    · subst h
      rw [Function.update_self, Function.update_self]
      rfl
    · rw [Function.update_of_ne h, Function.update_of_ne h, if_pos hi]
  · rw [if_neg hi, Function.update_of_ne (by omega), if_neg hi]

/-- `handshake_load_state` of the two models. -/
theorem ofDevice_handshakeLoadState (dev : ContactDevice K)
    (hactive : dev.activeHandshakeIdx < maxContacts) :
    HandshakeArray.ofDevice dev.handshakeLoadState = (HandshakeArray.ofDevice dev).loadState := by
  simp only [HandshakeArray.ofDevice, ContactDevice.handshakeLoadState, HandshakeArray.loadState,
    HandshakeArray.current, if_pos hactive]
  cases hstored : ContactDevice.storedHandshake dev.nvs dev.activeHandshakeIdx with
  | none => simp only [Option.getD_none, Function.update_eq_self]
  | some entry => simp only [Option.getD_some]

/-- `handshake_set_active` of the two models. -/
theorem ofDevice_handshakeSetActive (dev : ContactDevice K)
    (hactive : dev.activeHandshakeIdx < maxContacts) (idx : ℕ) :
    HandshakeArray.ofDevice (dev.handshakeSetActive idx) =
      (HandshakeArray.ofDevice dev).setActive idx true := by
  rw [ContactDevice.handshakeSetActive, HandshakeArray.setActive]
  by_cases hidx : maxContacts ≤ idx
  · rw [if_pos hidx, if_pos hidx]
  · rw [if_neg hidx, if_neg hidx, ofDevice_handshakeLoadState _ (by simpa using hidx)]
    by_cases hne : dev.activeHandshakeIdx = idx
    · have hsame : (HandshakeArray.ofDevice dev).active = idx := hne
      simp only [hne, hsame, ne_eq, not_true_eq_false, if_false]
      rfl
    · have hdiff : (HandshakeArray.ofDevice dev).active ≠ idx := hne
      simp only [hne, hdiff, ne_eq, not_false_eq_true, if_true]
      rw [← ofDevice_handshakeSaveState dev hactive]
      rfl

end SimpleGo
