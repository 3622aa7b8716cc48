import SimpleGo.Contacts.RatchetSlots
import SimpleGo.Ratchet.SendKeys

/-!
# The position on the sending chain

The header of a message carries `msg_num_send`, and the peer steps its chain that many times
to find the message key. `ratchet_encrypt` advances `chain_key_send` first and counts the
message at its end, so a call that fails in between leaves the key one step ahead of the
number; `ratchet_decrypt_body` changes key and number together after its last failure.

`ChainRun` follows, for what RAM and what NVS have of each contact, the key its sending chain
started from. A new chain starts with `ratchet_init_sender` or with an ADVANCE.
-/

namespace SimpleGo

open Lib

variable {K : Type}

/-! ### The position of one state -/

/-- The chain key is as many steps from the start of the chain as messages are counted. -/
def ChainPosition (P : Primitives K) (st : RatchetClassical K) (start : K) : Prop :=
  st.chainKeySend = P.skipChain st.msgNumSend.toNat start

/-- The position is exact, and a ciphertext has in its header the number of the chain step
whose keys encrypt it. -/
structure SendPosition (P : Primitives K) (st : RatchetState K) (start : K) : Prop where
  exact : ChainPosition P st.toRatchetClassical start
  named : ∀ idx enabled cleanup plaintext paddedMsgLen output,
    (ratchetEncrypt P idx enabled cleanup st plaintext paddedMsgLen).output = some output →
      ∃ header paddedLen,
        messageHeader enabled st.dhSelf.publicKey st.pq st.prevChainLen st.msgNumSend =
          some header ∧
        output = encRatchetMessage P
          { st with chainKeySend := P.skipChain st.msgNumSend.toNat start }
          header plaintext paddedLen

/-- An exact position names the step of the next message. -/
theorem ChainPosition.send {P : Primitives K} {st : RatchetState K} {start : K}
    (h : ChainPosition P st.toRatchetClassical start) : SendPosition P st start := by
  refine ⟨h, ?_⟩
  intro idx enabled cleanup plaintext paddedMsgLen output hout
  rw [← show st.chainKeySend = P.skipChain st.msgNumSend.toNat start from h]
  rcases ratchetEncrypt_cases P idx enabled cleanup st plaintext paddedMsgLen with
    ⟨-, he⟩ | ⟨-, -, he⟩ | ⟨-, -, paddedLen, header, -, hheader, he⟩
  · rw [he] at hout
    cases hout
  · rw [he] at hout
    cases hout
  · rw [he] at hout
    exact ⟨header, paddedLen, hheader, (Option.some.inj hout).symm⟩

/-- A sent message moves key and number by one, as long as the number does not wrap. -/
theorem ChainPosition.sent {P : Primitives K} {st : RatchetState K} {start : K}
    (h : ChainPosition P st.toRatchetClassical start) (hwrap : st.msgNumSend ≠ 0xffffffff) :
    ChainPosition P (st.sent P).toRatchetClassical start := by
  have hnum : (st.msgNumSend + 1).toNat = st.msgNumSend.toNat + 1 := by
    have hne : st.msgNumSend.toNat ≠ 4294967295 := fun heq => hwrap (UInt32.toNat_inj.mp heq)
    have hlt := st.msgNumSend.toNat_lt
    rw [UInt32.toNat_add]
    change (st.msgNumSend.toNat + 1) % 2 ^ 32 = _
    omega
  have hkey : st.chainKeySend = P.skipChain st.msgNumSend.toNat start := h
  change P.nextChainKey st.chainKeySend = P.skipChain (st.msgNumSend + 1).toNat start
  rw [hnum, P.skipChain_succ, hkey]

/-! ### The chains of the device -/

/-- The key the sending chain in RAM started from, after an operation; `ram` is that of the
contact in use before it and `stored` those of the blobs in NVS. -/
def SessionOp.chainStart (P : Primitives K) (current : ℕ) (nvs : Nvs K) (st : RatchetState K)
    (ram : K) (stored : ℕ → K) : SessionOp → K
  | call (.encrypt ..) => ram
  | call (.cryptoTask _) => ram
  | call (.decrypt enabled draws recvPq body) =>
    let out := ratchetDecryptBody P current enabled draws recvPq st body
    match body.mode, out.result with
    | .advance, .ok _ => out.state.chainKeySend
    | _, _ => ram
  | initSender peerDhPublic ourKey2 =>
    let out := ratchetInitSender P peerDhPublic ourKey2 st
    if out.1 then out.2.chainKeySend else ram
  | loadState idx => if (ratchetLoadState nvs idx).isSome then stored idx else ram
  | x3dhSender _ _ _ _ => ram
  | saveState _ => ram
  | pqSave _ => ram
  | pqLoad _ => ram

/-- The device, with the keys the chains in RAM and in NVS started from. -/
structure ChainRun (K : Type) where
  device : ContactDevice K
  ram : ℕ → K
  stored : ℕ → K

/-- What a run consists of: operations of the store, and erased NVS keys, as a removed contact
leaves them. -/
inductive ChainOp where
  | store (op : StoreOp)
  | erase (key : String)

/-- The chain starts after an operation of the store. -/
def ChainRun.starts (P : Primitives K) (r : ChainRun K) : StoreOp → (ℕ → K) × (ℕ → K)
  | .setActive idx =>
    if maxContacts ≤ idx ∨ (r.device.slotRatchet idx).initialized then (r.ram, r.stored)
    else (Function.update r.ram idx (r.stored idx), r.stored)
  | .session op lands =>
    let dev := r.device
    let start := op.chainStart P dev.activeRatchetIdx dev.nvs dev.ratchetState
      (r.ram dev.activeRatchetIdx) r.stored
    let writes := Store.landed lands (op.writes P dev.activeRatchetIdx dev.ratchetState)
    (Function.update r.ram dev.activeRatchetIdx start,
      fun j => if savesRatchet j writes then start else r.stored j)
  | .wipe _ => (r.ram, r.stored)
  | .reboot => (r.ram, r.stored)

/-- One operation. A selection after a wipe of the contact in use writes behind the table
(`ContactDevice.putBack`); what that overwrites is not followed here. -/
def ChainRun.step (P : Primitives K) (r : ChainRun K) : ChainOp → ChainRun K
  | .store op =>
    { device := r.device.storeStep P op, ram := (r.starts P op).1, stored := (r.starts P op).2 }
  | .erase key => { r with device := { r.device with nvs := r.device.nvs.erase key } }

/-- A new device; no chain has started. -/
def ChainRun.blank (P : Primitives K) : ChainRun K where
  device := .blank P
  ram := fun _ => P.zeroKey
  stored := fun _ => P.zeroKey

/-- No encryption fails after its chain step, and none is the last its number can count. -/
def KeepsPosition (r : ChainRun K) : ChainOp → Prop
  | .store (.session (.call (.encrypt enabled cleanup _ paddedMsgLen)) _) =>
    encryptAdmitted enabled r.device.ratchetState paddedMsgLen = true →
      cleanup = false ∧ r.device.ratchetState.msgNumSend ≠ 0xffffffff
  | _ => True

/-! ### One operation -/

/-- `ratchet_init_sender` fails with the DH inputs stored, or starts a chain. -/
theorem ratchetInitSender_cases (P : Primitives K) (peerDhPublic : Bytes 56)
    (ourKey2 : X448KeyPair) (st : RatchetState K) :
    ((ratchetInitSender P peerDhPublic ourKey2 st).1 = false ∧
      (ratchetInitSender P peerDhPublic ourKey2 st).2 =
        { st with dhSelf := ourKey2, dhPeer := peerDhPublic }) ∨
    ((ratchetInitSender P peerDhPublic ourKey2 st).1 = true ∧
      (ratchetInitSender P peerDhPublic ourKey2 st).2.msgNumSend = 0) := by
  rw [ratchetInitSender]
  cases P.x448Dh peerDhPublic ourKey2.privateKey with
  | none => exact Or.inl ⟨rfl, rfl⟩
  | some dhOut => exact Or.inr ⟨rfl, rfl⟩

section Operation

variable {P : Primitives K} {current : ℕ} {nvs : Nvs K} {st : RatchetState K} {ram : K}
  {stored : ℕ → K}

/-- The ratchet blobs an operation writes are the state it leaves. -/
theorem SessionOp.ratchet_write {op : SessionOp} {w : NvsWrite K}
    (h : w ∈ op.writes P current st) (j : ℕ) (hkey : w.1 = ratKey j) :
    w.2 = .ratchet (op.state P current nvs st).toRatchetClassical := by
  cases op with
  | call c =>
    cases c with
    | encrypt enabled cleanup plaintext paddedMsgLen =>
      rw [SessionOp.writes, RatchetCall.writes] at h
      rw [SessionOp.state, RatchetCall.state]
      rcases ratchetEncrypt_cases P current enabled cleanup st plaintext paddedMsgLen with
        ⟨-, he⟩ | ⟨-, -, he⟩ | ⟨-, -, _, _, -, -, he⟩
      · rw [he] at h
        cases h
      · rw [he] at h
        cases h
      · rw [he] at h ⊢
        rw [mem_ratchetSaveState h]
    | decrypt enabled draws recvPq body =>
      rw [SessionOp.writes, RatchetCall.writes] at h
      rw [SessionOp.state, RatchetCall.state]
      rcases ratchetDecryptBody_cases P current enabled draws recvPq st body with
        ⟨-, e, hd⟩ | ⟨-, -, plaintext, -, hd⟩ | ⟨-, e, hd⟩ | ⟨-, keys, plaintext, -, -, hd⟩
      · rw [hd] at h
        cases h
      · rw [hd] at h ⊢
        rw [mem_ratchetSaveState h]
      · rw [hd] at h
        obtain ⟨field, hfield⟩ := mem_advanceRatchet_writes P current enabled draws recvPq st h
        exact absurd (hkey.symm.trans hfield) (ratKey_ne_pqKey _ _ _)
      · rw [hd] at h ⊢
        rcases List.mem_append.mp h with hw | hw
        · obtain ⟨field, hfield⟩ := mem_advanceRatchet_writes P current enabled draws recvPq st hw
          exact absurd (hkey.symm.trans hfield) (ratKey_ne_pqKey _ _ _)
        · rw [mem_ratchetSaveState hw]
    | cryptoTask late => cases h
  | initSender peerDhPublic ourKey2 =>
    simp only [SessionOp.writes] at h
    split_ifs at h
    · rw [mem_ratchetSaveState h]
      rfl
    · cases h
  | saveState idx => rw [mem_ratchetSaveState h, SessionOp.state]
  | pqSave idx =>
    obtain ⟨field, -, hfield⟩ := mem_pqNvsSave h
    exact absurd (hkey.symm.trans hfield) (ratKey_ne_pqKey _ _ _)
  | x3dhSender _ _ _ _ => cases h
  | loadState _ => cases h
  | pqLoad _ => cases h

/-- A decryption keeps the chain or starts a new one at its first step. -/
theorem ratchetDecryptBody_position {enabled : Bool} {draws : DecryptDraws}
    {recvPq : Option ParsedMsgHeader} {body : BodyCall}
    (hram : st.initialized = true → ChainPosition P st.toRatchetClassical ram)
    (hinit :
      (ratchetDecryptBody P current enabled draws recvPq st body).state.initialized = true) :
    ChainPosition P
      (ratchetDecryptBody P current enabled draws recvPq st body).state.toRatchetClassical
      ((SessionOp.call (.decrypt enabled draws recvPq body)).chainStart P current nvs st ram
        stored) := by
  rw [SessionOp.chainStart]
  rcases ratchetDecryptBody_cases P current enabled draws recvPq st body with
    ⟨hmode, e, hd⟩ | ⟨hmode, -, plaintext, -, hd⟩ | ⟨hmode, e, hd⟩ |
      ⟨hmode, keys, plaintext, -, -, hd⟩
  · rw [hd] at hinit
    rw [hd, hmode]
    exact hram hinit
  · rw [hd] at hinit
    rw [hd, hmode]
    exact hram hinit
  · rw [hd] at hinit
    rw [hd, hmode]
    exact hram hinit
  · -- the new chain is at its first step
    rw [hd, hmode]
    rfl

/-- An operation leaves an exact position when it keeps it. -/
theorem SessionOp.chainPosition (op : SessionOp) (current : ℕ)
    (hram : st.initialized = true → ChainPosition P st.toRatchetClassical ram)
    (hstored : ∀ j classical, nvs (ratKey j) = some (.ratchet classical) →
      classical.initialized = true → ChainPosition P classical (stored j))
    (hkeeps : ∀ enabled cleanup plaintext paddedMsgLen,
      op = .call (.encrypt enabled cleanup plaintext paddedMsgLen) →
        encryptAdmitted enabled st paddedMsgLen = true →
          cleanup = false ∧ st.msgNumSend ≠ 0xffffffff)
    (hinit : (op.state P current nvs st).initialized = true) :
    ChainPosition P (op.state P current nvs st).toRatchetClassical
      (op.chainStart P current nvs st ram stored) := by
  cases op with
  | call c =>
    cases c with
    | encrypt enabled cleanup plaintext paddedMsgLen =>
      rw [SessionOp.state, RatchetCall.state] at hinit ⊢
      rw [SessionOp.chainStart]
      rcases ratchetEncrypt_cases P current enabled cleanup st plaintext paddedMsgLen with
        ⟨-, he⟩ | ⟨hadm, hclean, he⟩ | ⟨hadm, -, _, _, -, -, he⟩
      · rw [he] at hinit ⊢
        exact hram hinit
      · have hok := (hkeeps _ _ _ _ rfl hadm).1
        rw [hclean] at hok
        cases hok
      · rw [he] at hinit ⊢
        exact (hram hinit).sent (hkeeps _ _ _ _ rfl hadm).2
    | decrypt enabled draws recvPq body =>
      rw [SessionOp.state, RatchetCall.state] at hinit ⊢
      exact ratchetDecryptBody_position hram hinit
    | cryptoTask late => exact hram hinit
  | x3dhSender peerKey1 peerKey2 ourKey1 ourKey2 =>
    rw [SessionOp.state] at hinit ⊢
    rw [SessionOp.chainStart]
    cases hx3dh : x3dhSecrets P peerKey1 peerKey2 ourKey1 ourKey2 with
    | none =>
      simp only [ratchetX3dhSender, hx3dh, Option.bind_eq_bind, Option.bind_none,
        Option.getD_none] at hinit ⊢
      exact hram hinit
    | some dhCombined =>
      simp only [ratchetX3dhSender, hx3dh, Option.bind_eq_bind, Option.bind_some,
        Option.pure_def, Option.getD_some] at hinit ⊢
      exact hram hinit
  | initSender peerDhPublic ourKey2 =>
    rw [SessionOp.state] at hinit ⊢
    rw [SessionOp.chainStart]
    rcases ratchetInitSender_cases P peerDhPublic ourKey2 st with ⟨hret, hst⟩ | ⟨hret, hnum⟩
    · rw [hst] at hinit
      simp only [hret, hst, Bool.false_eq_true, if_false]
      exact hram hinit
    · simp only [hret, if_true]
      rw [ChainPosition, hnum]
      rfl
  | loadState idx =>
    rw [SessionOp.state] at hinit ⊢
    rw [SessionOp.chainStart]
    cases hload : ratchetLoadState nvs idx with
    | none =>
      rw [hload] at hinit
      exact hram hinit
    | some loaded =>
      obtain ⟨hblob, hloaded⟩ := ratchetLoadState_eq_some hload
      exact hstored idx _ hblob hloaded
  | saveState _ => exact hram hinit
  | pqSave _ => exact hram hinit
  | pqLoad _ => exact hram hinit

end Operation

/-! ### Runs -/

/-- Every session in RAM and every stored one is at its position. Behind the table there is
none. -/
structure ChainInv (P : Primitives K) (r : ChainRun K) : Prop where
  ram : ∀ i, (r.device.slotRatchet i).initialized = true →
    ChainPosition P (r.device.slotRatchet i).toRatchetClassical (r.ram i)
  stored : ∀ j classical, r.device.nvs (ratKey j) = some (.ratchet classical) →
    classical.initialized = true → ChainPosition P classical (r.stored j)
  beyond : ∀ i, maxContacts ≤ i → (r.device.ratchetStates i).initialized = false

/-- A selection changes nothing behind the table. -/
theorem ratchetSetActive_beyond (dev : ContactDevice K) {i idx : ℕ} (hi : maxContacts ≤ i) :
    (dev.ratchetSetActive idx).ratchetStates i = dev.ratchetStates i := by
  rw [ContactDevice.ratchetSetActive]
  split_ifs with hidx
  · rfl
  · have hne : i ≠ idx := fun h => hidx (h ▸ hi)
    have hback : dev.putBack i = dev.ratchetStates i := by
      rw [ContactDevice.putBack]
      split_ifs with hactive
      · have hne' : i ≠ dev.activeRatchetIdx := fun h => Nat.not_lt_of_le hi (h ▸ hactive)
        exact Function.update_of_ne hne' ..
      · rfl
    dsimp only
    split_ifs
    · exact hback
    · cases ratchetReload dev.nvs idx with
      | none => exact hback
      | some loaded => exact (Function.update_of_ne hne ..).trans hback

section Runs

variable {P : Primitives K} {r : ChainRun K}

/-- Selecting a contact keeps the positions. -/
theorem ChainInv.setActive (h : ChainInv P r) (idx : ℕ) :
    ChainInv P (r.step P (.store (.setActive idx))) := by
  by_cases hidx : maxContacts ≤ idx
  · have hdevice : r.device.storeStep P (.setActive idx) = r.device := if_pos hidx
    have hstarts : r.starts P (.setActive idx) = (r.ram, r.stored) := if_pos (Or.inl hidx)
    refine ⟨?_, ?_, ?_⟩
    · simp only [ChainRun.step, hdevice, hstarts]
      exact h.ram
    · simp only [ChainRun.step, hdevice, hstarts]
      exact h.stored
    · simp only [ChainRun.step, hdevice]
      exact h.beyond
  · have hlt := Nat.lt_of_not_le hidx
    obtain ⟨hnvs, -, -⟩ := ratchetSetActive_records r.device idx
    have hbeyond : ∀ i, maxContacts ≤ i →
        ((r.device.ratchetSetActive idx).ratchetStates i).initialized = false := by
      intro i hi
      rw [ratchetSetActive_beyond r.device hi]
      exact h.beyond i hi
    -- behind the table there is no session to be at a position
    have houtside : ∀ i, maxContacts ≤ i →
        ((r.device.ratchetSetActive idx).slotRatchet i).initialized = false := by
      intro i hi
      have hactive : (r.device.ratchetSetActive idx).activeRatchetIdx = idx :=
        ratchetSetActive_idx r.device hlt
      have hne : idx ≠ i := fun he => hidx (he ▸ hi)
      rw [ContactDevice.slotRatchet, if_neg (by rw [hactive]; exact hne)]
      exact hbeyond i hi
    by_cases hram : (r.device.slotRatchet idx).initialized = true
    · have hfound : r.device.found idx = r.device.slotRatchet idx := if_pos hram
      have hstarts : r.starts P (.setActive idx) = (r.ram, r.stored) := if_pos (Or.inr hram)
      refine ⟨?_, ?_, hbeyond⟩
      · simp only [ChainRun.step, hstarts]
        intro i hinit
        by_cases hi : i < maxContacts
        · have hslot := ratchetSetActive_slotRatchet r.device hi hlt
          rw [hfound] at hslot
          have hsame : (r.device.ratchetSetActive idx).slotRatchet i = r.device.slotRatchet i := by
            rw [hslot]
            split_ifs with he
            · rw [he]
            · rfl
          change ((r.device.ratchetSetActive idx).slotRatchet i).initialized = true at hinit
          change ChainPosition P ((r.device.ratchetSetActive idx).slotRatchet i).toRatchetClassical _
          rw [hsame] at hinit ⊢
          exact h.ram i hinit
        · exact absurd hinit (by
            change ¬ ((r.device.ratchetSetActive idx).slotRatchet i).initialized = true
            simp [houtside i (Nat.le_of_not_lt hi)])
      · simp only [ChainRun.step, ContactDevice.storeStep, hnvs, hstarts]
        exact h.stored
    · have hfound : r.device.found idx =
          (ratchetReload r.device.nvs idx).getD (r.device.slotRatchet idx) := if_neg hram
      have hstarts : r.starts P (.setActive idx) =
          (Function.update r.ram idx (r.stored idx), r.stored) :=
        if_neg (not_or.mpr ⟨hidx, hram⟩)
      refine ⟨?_, ?_, hbeyond⟩
      · simp only [ChainRun.step, hstarts]
        intro i hinit
        by_cases hi : i < maxContacts
        · have hslot := ratchetSetActive_slotRatchet r.device hi hlt
          change ((r.device.ratchetSetActive idx).slotRatchet i).initialized = true at hinit
          change ChainPosition P ((r.device.ratchetSetActive idx).slotRatchet i).toRatchetClassical _
          by_cases he : i = idx
          · subst he
            rw [hslot, if_pos rfl, hfound] at hinit ⊢
            rw [Function.update_self]
            cases hreload : ratchetReload r.device.nvs i with
            | none =>
              rw [hreload] at hinit
              exact absurd hinit hram
            | some st =>
              obtain ⟨-, hblob, hst, -⟩ := ratchetReload_eq_some hreload
              exact h.stored i _ hblob hst
          · rw [hslot, if_neg he] at hinit ⊢
            rw [Function.update_of_ne he]
            exact h.ram i hinit
        · exact absurd hinit (by
            change ¬ ((r.device.ratchetSetActive idx).slotRatchet i).initialized = true
            simp [houtside i (Nat.le_of_not_lt hi)])
      · simp only [ChainRun.step, ContactDevice.storeStep, hnvs, hstarts]
        exact h.stored

/-- An operation on the contact in use keeps the positions when it keeps its own. -/
theorem ChainInv.session (h : ChainInv P r) (op : SessionOp) (lands : ℕ → Bool)
    (hkeeps : KeepsPosition r (.store (.session op lands))) :
    ChainInv P (r.step P (.store (.session op lands))) := by
  have hactive : r.device.slotRatchet r.device.activeRatchetIdx = r.device.ratchetState :=
    slotRatchet_active r.device
  have hram : r.device.ratchetState.initialized = true →
      ChainPosition P r.device.ratchetState.toRatchetClassical
        (r.ram r.device.activeRatchetIdx) := by
    rw [← hactive]
    exact h.ram _
  have hstate := op.chainPosition r.device.activeRatchetIdx hram h.stored (by
    rintro enabled cleanup plaintext paddedMsgLen rfl
    exact hkeeps)
  have hsession := storeStep_session_slotRatchet_eq P r.device op lands
  refine ⟨?_, ?_, h.beyond⟩
  · simp only [ChainRun.step, hsession, ChainRun.starts]
    intro i hinit
    by_cases hi : i = r.device.activeRatchetIdx
    · subst hi
      rw [Function.update_self] at hinit ⊢
      rw [Function.update_self]
      exact hstate hinit
    · rw [Function.update_of_ne hi] at hinit ⊢
      rw [Function.update_of_ne hi]
      exact h.ram i hinit
  · intro j classical hblob hinit
    simp only [ChainRun.step, ChainRun.starts]
    change r.device.nvs.putAll _ (ratKey j) = _ at hblob
    have hwrites : ∀ w ∈ Store.landed lands
        (op.writes P r.device.activeRatchetIdx r.device.ratchetState), w.1 = ratKey j →
          w.2 = .ratchet (op.state P r.device.activeRatchetIdx r.device.nvs
            r.device.ratchetState).toRatchetClassical := fun w hw hkey =>
      op.ratchet_write ((Store.landed_sublist _ _).subset hw) j hkey
    rw [putAll_ratKey hwrites] at hblob
    by_cases hsaves : savesRatchet j (Store.landed lands
        (op.writes P r.device.activeRatchetIdx r.device.ratchetState)) = true
    · rw [if_pos hsaves, Option.some.injEq, Blob.ratchet.injEq] at hblob
      rw [if_pos hsaves]
      subst hblob
      exact hstate hinit
    · rw [if_neg hsaves] at hblob
      rw [if_neg hsaves]
      exact h.stored j classical hblob hinit

/-- A wiped slot and a rebooted device have no session in RAM. -/
theorem ChainInv.cleared (h : ChainInv P r) (dev : ContactDevice K) (hnvs : dev.nvs = r.device.nvs)
    (hsession : ∀ i, dev.slotRatchet i = r.device.slotRatchet i ∨ dev.slotRatchet i = .zero P)
    (hbeyond : ∀ i, maxContacts ≤ i → (dev.ratchetStates i).initialized = false) :
    ChainInv P { device := dev, ram := r.ram, stored := r.stored } := by
  refine ⟨fun i hinit => ?_, ?_, hbeyond⟩
  · rcases hsession i with hi | hi
    · rw [hi] at hinit ⊢
      exact h.ram i hinit
    · rw [hi] at hinit
      cases hinit
  · rw [hnvs]
    exact h.stored

/-- Every operation that keeps its own position keeps all of them. -/
theorem ChainInv.step (r : ChainRun K) (op : ChainOp) (h : ChainInv P r)
    (hkeeps : KeepsPosition r op) : ChainInv P (r.step P op) := by
  cases op with
  | erase key =>
    refine ⟨h.ram, fun j classical hblob hinit => ?_, h.beyond⟩
    by_cases hkey : ratKey j = key
    · change r.device.nvs.erase key (ratKey j) = _ at hblob
      rw [hkey, Store.erase_self] at hblob
      cases hblob
    · change r.device.nvs.erase key (ratKey j) = _ at hblob
      rw [Store.erase_of_ne _ hkey] at hblob
      exact h.stored j classical hblob hinit
  | store op =>
    cases op with
    | setActive idx => exact h.setActive idx
    | session op lands => exact h.session op lands hkeeps
    | wipe idx =>
      by_cases hidx : idx < maxContacts
      · refine h.cleared _ (ContactDevice.ratchetWipeSlot_nvs P r.device idx) (fun i => ?_)
          fun i hi => ?_
        · change (r.device.ratchetWipeSlot P idx).slotRatchet i = _ ∨
            (r.device.ratchetWipeSlot P idx).slotRatchet i = _
          rw [ratchetWipeSlot_slotRatchet_eq P r.device hidx]
          split_ifs
          · exact Or.inr rfl
          · exact Or.inl rfl
        · have hne : i ≠ idx := fun he => Nat.not_lt_of_le hi (he ▸ hidx)
          rw [ContactDevice.storeStep, ContactDevice.ratchetWipeSlot,
            if_neg (Nat.not_le_of_lt hidx)]
          dsimp only
          rw [Function.update_of_ne hne]
          exact h.beyond i hi
      · have hdevice : r.device.storeStep P (.wipe idx) = r.device := if_pos (Nat.le_of_not_lt hidx)
        simp only [ChainRun.step, hdevice, ChainRun.starts]
        exact h
    | reboot => exact h.cleared _ rfl (fun i => Or.inr (ite_self _)) fun _ _ => rfl

/-- It holds of a blank device. -/
theorem ChainInv.blank (P : Primitives K) : ChainInv P (.blank P) := by
  refine ⟨fun i hinit => ?_, (fun j classical hblob => by cases hblob), fun _ _ => rfl⟩
  have hzero : (ChainRun.blank P).device.slotRatchet i = .zero P := ite_self _
  rw [hzero] at hinit
  cases hinit

end Runs

/-- In every run from a new device in which no encryption fails after its chain step, and no
chain is used past the last number, every session is at its position. -/
theorem sendPosition_exact (P : Primitives K) (ops : List ChainOp)
    (h : StepsMeet (ChainRun.step P) KeepsPosition (.blank P) ops) (i : ℕ)
    (hinit : ((runFrom (ChainRun.step P) (.blank P) ops).device.slotRatchet i).initialized =
      true) :
    SendPosition P ((runFrom (ChainRun.step P) (.blank P) ops).device.slotRatchet i)
      ((runFrom (ChainRun.step P) (.blank P) ops).ram i) :=
  ((h.invariant ChainInv.step (ChainInv.blank P)).ram i hinit).send

/-- A new session of contact 0 and a call of `ratchet_encrypt`. -/
def firstMessage (cleanup : Bool) : List ChainOp :=
  [.store (.session (.x3dhSender (symbolicPair 1).publicKey (symbolicPair 2).publicKey
      (symbolicPair 3) (symbolicPair 4)) fun _ => true),
    .store (.session (.initSender (symbolicPair 2).publicKey (symbolicPair 4)) fun _ => true),
    .store (.session (.call (.encrypt false cleanup [1] 300)) fun _ => true)]

/-- The device after it. -/
def afterFirstMessage (cleanup : Bool) : ChainRun SymKey :=
  runFrom (ChainRun.step symbolic) (.blank symbolic) (firstMessage cleanup)

/-- A message that is sent leaves contact 0 at its position. -/
theorem sendPosition_exact_first : SendPosition symbolic
    ((afterFirstMessage false).device.slotRatchet 0) ((afterFirstMessage false).ram 0) :=
  sendPosition_exact symbolic (firstMessage false)
    ⟨trivial, trivial, fun _ => ⟨rfl, by decide⟩, trivial⟩ 0 rfl

/-- A message that fails in an allocation or in AES-GCM does not. -/
theorem sendPosition_lost_by_failure :
    ((afterFirstMessage true).device.slotRatchet 0).initialized = true ∧
    ¬ SendPosition symbolic ((afterFirstMessage true).device.slotRatchet 0)
      ((afterFirstMessage true).ram 0) := by
  refine ⟨rfl, fun h => ?_⟩
  exact symbolic_nextChainKey_ne _ h.exact

end SimpleGo
