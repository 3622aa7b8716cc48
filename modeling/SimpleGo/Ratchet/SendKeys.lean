import SimpleGo.Lib.Orbits
import SimpleGo.Ratchet.CrashConsistency

/-!
# Message keys of released ciphertexts

`ratchet_encrypt` returns a ciphertext after it tried to save the advanced chain key. The
result of the save is ignored, so after a failed write and a reboot the old chain key is
loaded and encrypts another plaintext. `SendDevice` follows the released ciphertexts and
whether the last of them has been followed by a save that landed.
-/

namespace SimpleGo

open Lib

variable {K : Type}

/-- A ciphertext handed to the caller: the keys it was made with, and its plaintext. -/
structure Released (K : Type) where
  chainKey : K
  messageKey : K
  msgIv : Bytes 16
  plaintext : List UInt8

/-- One contact with its NVS, the ciphertexts released so far, the DH secrets of its sending
chains, and whether a ciphertext was released after the last save that landed. -/
structure SendDevice (K : Type) where
  state : RatchetState K
  nvs : Nvs K
  released : List (Released K)
  sendDh : List (Bytes 56)
  unsaved : Bool

/-- The operations of a run; `lands` says which NVS writes of the operation reach the flash. A
reboot loads the stored state unless the load fails. -/
inductive SendAction where
  | encrypt (enabled cleanup : Bool) (lands : ℕ → Bool) (plaintext : List UInt8)
      (paddedMsgLen : ℕ)
  | decrypt (enabled : Bool) (draws : DecryptDraws) (recvPq : Option ParsedMsgHeader)
      (lands : ℕ → Bool) (call : BodyCall)
  | reboot (loads : Bool)

/-- Whether the ratchet blob is among the writes. -/
def savesRatchet (idx : ℕ) (writes : List (NvsWrite K)) : Bool :=
  writes.any fun w => w.1 == ratKey idx

/-- The DH secret behind the sending chain of an ADVANCE. -/
def newSendDh (P : Primitives K) (draws : DecryptDraws) (call : BodyCall) : Option (Bytes 56) :=
  if call.mode = .advance then
    draws.dhSelf.bind fun pair => P.x448Dh call.peerNewPub pair.privateKey
  else none

/-- One operation. -/
def SendDevice.step (P : Primitives K) (idx : ℕ) (s : SendDevice K) : SendAction → SendDevice K
  | .encrypt enabled cleanup lands plaintext paddedMsgLen =>
    let out := ratchetEncrypt P idx enabled cleanup s.state plaintext paddedMsgLen
    let writes := Store.landed lands out.writes
    let keys := P.kdfChain s.state.chainKeySend
    { s with
      state := out.state
      nvs := s.nvs.putAll writes
      released := match out.output with
        | none => s.released
        | some _ => { chainKey := s.state.chainKeySend, messageKey := keys.messageKey
                      msgIv := keys.msgIv, plaintext } :: s.released
      unsaved := (out.output.isSome || s.unsaved) && !savesRatchet idx writes }
  | .decrypt enabled draws recvPq lands call =>
    let out := ratchetDecryptBody P idx enabled draws recvPq s.state call
    let writes := Store.landed lands out.writes
    { s with
      state := out.state
      nvs := s.nvs.putAll writes
      sendDh := match out.result with
        | .error _ => s.sendDh
        | .ok _ => (newSendDh P draws call).toList ++ s.sendDh
      unsaved := s.unsaved && !savesRatchet idx writes }
  | .reboot loads =>
    { s with
      state := if loads then (ratchetReload s.nvs idx).getD (.zero P) else .zero P }

/-- A start that loads finds the stored session. -/
theorem SendDevice.step_reboot_true (P : Primitives K) (idx : ℕ) (s : SendDevice K) :
    (s.step P idx (.reboot true)).state = (ratchetReload s.nvs idx).getD (.zero P) := rfl

/-- No two ciphertexts share message key and IV unless they have the same plaintext. -/
def NoKeyReuse (released : List (Released K)) : Prop :=
  released.Pairwise fun a b =>
    a.messageKey = b.messageKey → a.msgIv = b.msgIv → a.plaintext = b.plaintext

/-- The condition on a step: a reboot that loads a stored state comes after a save that landed
since the last released ciphertext. -/
def SendAction.Saved (idx : ℕ) (s : SendDevice K) : SendAction → Prop
  | .reboot loads => loads = true → (ratchetReload s.nvs idx).isSome → s.unsaved = false
  | _ => True

/-- A generated key pair gives a DH secret that no sending chain was derived from. -/
def SendAction.FreshDh (P : Primitives K) (s : SendDevice K) : SendAction → Prop
  | .decrypt _ draws _ _ call => ∀ dh, newSendDh P draws call = some dh → dh ∉ s.sendDh
  | _ => True

/-- A key of a sending chain that was derived from one of the DH secrets. -/
def IsSendKey (P : Primitives K) (sendDh : List (Bytes 56)) (chainKey : K) : Prop :=
  ∃ rootKey dh kem n, dh ∈ sendDh ∧ chainKey = P.skipChain n (P.kdfRoot rootKey dh kem).chainKey

/-- No released ciphertext was made at this chain key or later on its chain. -/
def Unreleased (P : Primitives K) (released : List (Released K)) (chainKey : K) : Prop :=
  ∀ r ∈ released, ∀ n, P.skipChain n chainKey ≠ r.chainKey

/-- The chain keys of RAM and NVS are ahead of everything released, NVS as long as nothing is
unsaved. -/
structure SendInv (P : Primitives K) (idx : ℕ) (s : SendDevice K) : Prop where
  keys : ∀ r ∈ s.released, r.messageKey = (P.kdfChain r.chainKey).messageKey
  distinct : s.released.Pairwise fun a b => a.chainKey ≠ b.chainKey
  released : ∀ r ∈ s.released, IsSendKey P s.sendDh r.chainKey
  ram : s.state.initialized = true →
    IsSendKey P s.sendDh s.state.chainKeySend ∧ Unreleased P s.released s.state.chainKeySend
  stored : ∀ classical, s.nvs (ratKey idx) = some (.ratchet classical) →
    classical.initialized = true → IsSendKey P s.sendDh classical.chainKeySend ∧
      (s.unsaved = false → Unreleased P s.released classical.chainKeySend)

section Chains

variable {P : Primitives K}

/-- Positions on chains are determined by the chain key. -/
theorem skipChain_root_inj (hP : P.CollisionFree) {rootKey rootKey' : K} {dh dh' : Bytes 56}
    {kem kem' : Option (Bytes 32)} {m n : ℕ}
    (h : P.skipChain m (P.kdfRoot rootKey dh kem).chainKey =
      P.skipChain n (P.kdfRoot rootKey' dh' kem').chainKey) : m = n ∧ dh = dh' := by
  have hstart : ∀ rk d ks x, P.nextChainKey x ≠ (P.kdfRoot rk d ks).chainKey := by
    intro rk d ks x hx
    cases (hP.inj _ _ _ _ hx).1
  obtain ⟨hmn, hroot⟩ := iterate_eq_iterate hP.nextChainKey_injective (hstart _ _ _)
    (hstart _ _ _) h
  obtain ⟨-, hdh, -⟩ := KdfCall.root.inj (hP.inj _ _ _ _ hroot).1
  exact ⟨hmn, hdh⟩

/-- A chain does not come back to a key it has passed. -/
theorem skipChain_succ_ne (hP : P.CollisionFree) {sendDh : List (Bytes 56)} {chainKey : K}
    (h : IsSendKey P sendDh chainKey) (n : ℕ) :
    P.skipChain n (P.nextChainKey chainKey) ≠ chainKey := by
  obtain ⟨rootKey, dh, kem, m, -, rfl⟩ := h
  rw [← P.skipChain_succ, ← P.skipChain_add]
  intro heq
  have hlen := (skipChain_root_inj hP heq).1
  omega

/-- A send key stays one with more keys drawn. -/
theorem IsSendKey.mono {sendDh sendDh' : List (Bytes 56)} {chainKey : K}
    (h : IsSendKey P sendDh chainKey) (hsub : ∀ dh ∈ sendDh, dh ∈ sendDh') :
    IsSendKey P sendDh' chainKey := by
  obtain ⟨rootKey, dh, kem, n, hdh, heq⟩ := h
  exact ⟨rootKey, dh, kem, n, hsub dh hdh, heq⟩

/-- The next key of a chain is a send key too. -/
theorem IsSendKey.next {sendDh : List (Bytes 56)} {chainKey : K}
    (h : IsSendKey P sendDh chainKey) : IsSendKey P sendDh (P.nextChainKey chainKey) := by
  obtain ⟨rootKey, dh, kem, n, hdh, heq⟩ := h
  exact ⟨rootKey, dh, kem, n + 1, hdh, by rw [heq, P.skipChain_succ]⟩

/-- Nothing was made at a later key either. -/
theorem Unreleased.next {released : List (Released K)} {chainKey : K}
    (h : Unreleased P released chainKey) : Unreleased P released (P.nextChainKey chainKey) := by
  intro r hr n
  have hne := h r hr (n + 1)
  rwa [Primitives.skipChain, Function.iterate_succ_apply] at hne

end Chains

section Writes

variable {idx : ℕ}

/-- The stored ratchet blob after some writes, all of whose ratchet blobs are the same. -/
theorem putAll_ratKey {nvs : Nvs K} {classical : RatchetClassical K} {writes : List (NvsWrite K)}
    (h : ∀ w ∈ writes, w.1 = ratKey idx → w.2 = .ratchet classical) :
    nvs.putAll writes (ratKey idx) =
      if savesRatchet idx writes then some (.ratchet classical) else nvs (ratKey idx) := by
  induction writes generalizing nvs with
  | nil => rfl
  | cons w writes ih =>
    rw [Store.putAll_cons, ih fun w' hw' => h w' (List.mem_cons_of_mem _ hw')]
    by_cases hrest : savesRatchet idx writes = true
    · have hall : savesRatchet idx (w :: writes) = true := by
        rw [savesRatchet, List.any_cons, ← savesRatchet, hrest, Bool.or_true]
      rw [if_pos hrest, if_pos hall]
    · by_cases hw : w.1 = ratKey idx
      · rw [if_neg hrest, ← hw, Store.put_self, h w List.mem_cons_self hw,
          if_pos (by simp [savesRatchet, hw])]
      · have hall : ¬ savesRatchet idx (w :: writes) = true := by
          rw [savesRatchet, List.any_cons, ← savesRatchet]
          simp [hw, hrest]
        rw [if_neg hrest, if_neg hall, Store.put_of_ne _ _ (Ne.symm hw)]

/-- The landed writes of a save. -/
theorem landed_ratchetSaveState (lands : ℕ → Bool) (st : RatchetState K) :
    ∀ w ∈ Store.landed lands (ratchetSaveState idx st), w.1 = ratKey idx →
      w.2 = .ratchet st.toRatchetClassical := by
  intro w hw _
  rw [mem_ratchetSaveState ((Store.landed_sublist _ _).subset hw)]

end Writes

section Steps

variable {P : Primitives K} {idx : ℕ} {s : SendDevice K}

/-- What the stored blob must satisfy, in a form that follows a set of writes. -/
private theorem SendInv.stored_writes (nvs : Nvs K) (st : RatchetState K) (unsaved : Bool)
    {sendDh : List (Bytes 56)} {released : List (Released K)} {writes : List (NvsWrite K)}
    (hwrites : ∀ w ∈ writes, w.1 = ratKey idx → w.2 = .ratchet st.toRatchetClassical)
    (hram : st.initialized = true →
      IsSendKey P sendDh st.chainKeySend ∧ Unreleased P released st.chainKeySend)
    (hold : ∀ classical, nvs (ratKey idx) = some (.ratchet classical) →
      classical.initialized = true → IsSendKey P sendDh classical.chainKeySend ∧
        (unsaved = false → Unreleased P released classical.chainKeySend))
    (classical : RatchetClassical K)
    (hblob : nvs.putAll writes (ratKey idx) = some (.ratchet classical))
    (hinit : classical.initialized = true) :
    IsSendKey P sendDh classical.chainKeySend ∧
      ((unsaved && !savesRatchet idx writes) = false →
        Unreleased P released classical.chainKeySend) := by
  rw [putAll_ratKey hwrites] at hblob
  by_cases hsave : savesRatchet idx writes = true
  · rw [if_pos hsave, Option.some.injEq, Blob.ratchet.injEq] at hblob
    subst hblob
    exact ⟨(hram hinit).1, fun _ => (hram hinit).2⟩
  · rw [if_neg hsave] at hblob
    obtain ⟨hkey, hfree⟩ := hold classical hblob hinit
    refine ⟨hkey, fun hu => hfree ?_⟩
    simpa [hsave] using hu

/-- An encryption keeps the invariant. -/
private theorem SendInv.encrypt (hP : P.CollisionFree) (h : SendInv P idx s)
    (enabled cleanup : Bool) (lands : ℕ → Bool) (plaintext : List UInt8) (paddedMsgLen : ℕ) :
    SendInv P idx (s.step P idx (.encrypt enabled cleanup lands plaintext paddedMsgLen)) := by
  rcases ratchetEncrypt_cases P idx enabled cleanup s.state plaintext paddedMsgLen with
    ⟨-, he⟩ | ⟨-, -, he⟩ | ⟨hadm, -, paddedLen, header, -, -, he⟩
  · simp only [SendDevice.step, he, Store.landed_nil, Store.putAll_nil]
    exact { h with stored := fun c hc hi => by simpa [savesRatchet] using h.stored c hc hi }
  · simp only [SendDevice.step, he, Store.landed_nil, Store.putAll_nil]
    exact
      { h with
        ram := fun hinit => ⟨(h.ram hinit).1.next, (h.ram hinit).2.next⟩
        stored := fun c hc hi => by simpa [savesRatchet] using h.stored c hc hi }
  · simp only [SendDevice.step, he]
    have hinit : s.state.initialized = true := by
      rw [encryptAdmitted, Bool.and_eq_true] at hadm
      exact hadm.1
    obtain ⟨hkey, hfree⟩ := h.ram hinit
    have hram : ∀ r ∈ ({ chainKey := s.state.chainKeySend
                         messageKey := (P.kdfChain s.state.chainKeySend).messageKey
                         msgIv := (P.kdfChain s.state.chainKeySend).msgIv
                         plaintext } :: s.released : List (Released K)), ∀ n,
        P.skipChain n (P.nextChainKey s.state.chainKeySend) ≠ r.chainKey := by
      intro r hr
      rcases List.mem_cons.mp hr with rfl | hr
      · exact skipChain_succ_ne hP hkey
      · exact hfree.next r hr
    exact
      { keys := by
          intro r hr
          rcases List.mem_cons.mp hr with rfl | hr
          · rfl
          · exact h.keys r hr
        distinct := List.pairwise_cons.mpr ⟨fun r hr => hfree r hr 0, h.distinct⟩
        released := by
          intro r hr
          rcases List.mem_cons.mp hr with rfl | hr
          · exact hkey
          · exact h.released r hr
        ram := fun _ => ⟨hkey.next, hram⟩
        stored := by
          refine SendInv.stored_writes s.nvs (s.state.sent P) true
            (landed_ratchetSaveState lands _) (fun _ => ⟨hkey.next, hram⟩) ?_
          intro classical hblob hi
          exact ⟨(h.stored classical hblob hi).1, fun hu => by cases hu⟩ }

/-- A decryption keeps the invariant when its new DH secret is fresh. -/
private theorem SendInv.decrypt (hP : P.CollisionFree) (h : SendInv P idx s) (enabled : Bool)
    (draws : DecryptDraws) (recvPq : Option ParsedMsgHeader) (lands : ℕ → Bool) (call : BodyCall)
    (hfresh : ∀ dh, newSendDh P draws call = some dh → dh ∉ s.sendDh) :
    SendInv P idx (s.step P idx (.decrypt enabled draws recvPq lands call)) := by
  rcases ratchetDecryptBody_cases P idx enabled draws recvPq s.state call with
    ⟨-, e, hd⟩ | ⟨hmode, -, plaintext, -, hd⟩ | ⟨-, e, hd⟩ | ⟨hmode, keys, plaintext, hkeys, -, hd⟩
  · simp only [SendDevice.step, hd, Store.landed_nil, Store.putAll_nil]
    exact { h with stored := fun c hc hi => by simpa [savesRatchet] using h.stored c hc hi }
  · have hdh : newSendDh P draws call = none := by simp [newSendDh, hmode]
    simp only [SendDevice.step, hd, hdh, Option.toList_none, List.nil_append]
    exact
      { h with
        stored := SendInv.stored_writes s.nvs (s.state.applySame P call.msgNs) s.unsaved
          (landed_ratchetSaveState lands _) h.ram h.stored }
  · simp only [SendDevice.step, hd]
    exact
      { h with
        stored := by
          refine SendInv.stored_writes s.nvs s.state s.unsaved ?_ h.ram h.stored
          intro w hw hkey
          obtain ⟨field, hfield⟩ := mem_advanceRatchet_writes P idx enabled draws recvPq s.state
            ((Store.landed_sublist _ _).subset hw)
          exact absurd (hkey.symm.trans hfield) (ratKey_ne_pqKey _ _ _) }
  · obtain ⟨dhRecv, dhSend, pair, -, hself, hsend, hlocals, -⟩ :=
      advanceRatchet_ok P idx enabled draws recvPq s.state hkeys
    have hdh : newSendDh P draws call = some dhSend := by
      simp [newSendDh, hmode, hself, hsend]
    have hnew := hfresh dhSend hdh
    simp only [SendDevice.step, hd, hdh, Option.toList_some, List.singleton_append]
    have hsub : ∀ dh ∈ s.sendDh, dh ∈ dhSend :: s.sendDh := fun dh hmem =>
      List.mem_cons_of_mem _ hmem
    -- the new chain starts from a DH secret that no released ciphertext's chain has
    have hram : IsSendKey P (dhSend :: s.sendDh) keys.sendChainKey ∧
        Unreleased P s.released keys.sendChainKey := by
      rw [hlocals]
      refine ⟨⟨_, dhSend, _, 0, List.mem_cons_self, rfl⟩, fun r hr n heq => ?_⟩
      obtain ⟨rootKey, dh, kem, m, hmem, hr⟩ := h.released r hr
      rw [hr] at heq
      obtain ⟨-, hsame⟩ := skipChain_root_inj hP heq
      exact hnew (hsame ▸ hmem)
    exact
      { keys := h.keys
        distinct := h.distinct
        released := fun r hr => (h.released r hr).mono hsub
        ram := fun _ => hram
        stored := by
          refine SendInv.stored_writes s.nvs (s.state.applyAdvance P keys call.peerNewPub
            call.msgNs ((advanceRatchet P idx enabled draws recvPq call.peerNewPub s.state).pq.carryOut
              (draws.late .finish))) s.unsaved ?_ (fun _ => hram) ?_
          · intro w hw hkey
            rcases List.mem_append.mp ((Store.landed_sublist _ _).subset hw) with hw | hw
            · obtain ⟨field, hfield⟩ :=
                mem_advanceRatchet_writes P idx enabled draws recvPq s.state hw
              exact absurd (hkey.symm.trans hfield) (ratKey_ne_pqKey _ _ _)
            · rw [mem_ratchetSaveState hw]
          · intro classical hblob hi
            obtain ⟨hk, hfree⟩ := h.stored classical hblob hi
            exact ⟨hk.mono hsub, hfree⟩ }

/-- A reboot keeps the invariant when what it loads is not behind the released ciphertexts. -/
private theorem SendInv.reboot (h : SendInv P idx s) (loads : Bool)
    (hsaved : loads = true → (ratchetReload s.nvs idx).isSome → s.unsaved = false) :
    SendInv P idx (s.step P idx (.reboot loads)) := by
  refine { h with ram := fun hinit => ?_ }
  simp only [SendDevice.step] at hinit ⊢
  cases loads with
  | false => cases hinit
  | true =>
    cases hload : ratchetReload s.nvs idx with
    | none =>
      rw [hload] at hinit
      cases hinit
    | some st =>
      obtain ⟨-, hblob, hst, -⟩ := ratchetReload_eq_some hload
      obtain ⟨hkey, hfree⟩ := h.stored _ hblob hst
      exact ⟨hkey, hfree (hsaved rfl (by rw [hload]; rfl))⟩

/-- Every admitted step keeps the invariant. -/
theorem SendInv.step (hP : P.CollisionFree) (s : SendDevice K) (a : SendAction)
    (h : SendInv P idx s) (ha : a.Saved idx s ∧ a.FreshDh P s) :
    SendInv P idx (s.step P idx a) := by
  cases a with
  | encrypt enabled cleanup lands plaintext paddedMsgLen =>
    exact h.encrypt hP enabled cleanup lands plaintext paddedMsgLen
  | decrypt enabled draws recvPq lands call =>
    exact h.decrypt hP enabled draws recvPq lands call ha.2
  | reboot loads => exact h.reboot loads ha.1

end Steps

/-- The device after the handshake: the first save may be lost too. -/
def SendDevice.start (idx : ℕ) (st : RatchetState K) (nvs : Nvs K) (lands : ℕ → Bool)
    (dhOut : Bytes 56) : SendDevice K where
  state := st
  nvs := nvs.putAll (Store.landed lands (ratchetSaveState idx st))
  released := []
  sendDh := [dhOut]
  unsaved := false

/-- The handshake establishes the invariant on a slot that has no ratchet blob. -/
theorem SendInv.start {P : Primitives K} {idx : ℕ} {peerKey1 peerKey2 : Bytes 56}
    {ourKey1 ourKey2 : X448KeyPair} {st : RatchetState K} {dhOut : Bytes 56} (nvs : Nvs K)
    (lands : ℕ → Bool) (hsetup : ratchetSetup P peerKey1 peerKey2 ourKey1 ourKey2 = some st)
    (hdh : P.x448Dh peerKey2 ourKey2.privateKey = some dhOut)
    (hnvs : nvs (ratKey idx) = none) :
    SendInv P idx (SendDevice.start idx st nvs lands dhOut) := by
  obtain ⟨dhCombined, dhOut', -, hdh', hst⟩ := ratchetSetup_eq_some hsetup
  obtain rfl := Option.some.inj (hdh.symm.trans hdh')
  have hram : IsSendKey P [dhOut] st.chainKeySend ∧
      Unreleased P ([] : List (Released K)) st.chainKeySend := by
    rw [hst]
    exact ⟨⟨_, dhOut, none, 0, List.mem_cons_self, rfl⟩, fun r hr => by cases hr⟩
  exact
    { keys := fun r hr => by cases hr
      distinct := List.Pairwise.nil
      released := fun r hr => by cases hr
      ram := fun _ => hram
      stored := by
        intro classical hblob _
        change nvs.putAll _ (ratKey idx) = _ at hblob
        rw [putAll_ratKey (landed_ratchetSaveState lands st), hnvs] at hblob
        split_ifs at hblob
        · rw [Option.some.injEq, Blob.ratchet.injEq] at hblob
          subst hblob
          exact ⟨hram.1, fun _ => hram.2⟩ }

/-- In every run from the handshake in which each loading reboot comes after a save that
landed since the last released ciphertext, no two ciphertexts share message key and IV. -/
theorem released_keys_unique (P : Primitives K) (hP : P.CollisionFree) (idx : ℕ)
    (peerKey1 peerKey2 : Bytes 56) (ourKey1 ourKey2 : X448KeyPair) (st : RatchetState K)
    (dhOut : Bytes 56) (nvs : Nvs K) (lands : ℕ → Bool) (actions : List SendAction)
    (hsetup : ratchetSetup P peerKey1 peerKey2 ourKey1 ourKey2 = some st)
    (hdh : P.x448Dh peerKey2 ourKey2.privateKey = some dhOut) (hnvs : nvs (ratKey idx) = none)
    (hrun : StepsMeet (SendDevice.step P idx) (fun s a => a.Saved idx s ∧ a.FreshDh P s)
      (.start idx st nvs lands dhOut) actions) :
    NoKeyReuse (runFrom (SendDevice.step P idx) (.start idx st nvs lands dhOut) actions).released
    := by
  have hinv := hrun.invariant (SendInv.step hP) (SendInv.start nvs lands hsetup hdh hnvs)
  refine hinv.distinct.imp_of_mem fun {a b} ha hb hne hkey => ?_
  rw [hinv.keys a ha, hinv.keys b hb] at hkey
  exact absurd (hP.messageKey_injective hkey) hne

/-- The sample session with its first save in an empty store. -/
def sampleSendDevice : SendDevice SymKey :=
  .start 0 sampleSession (fun _ => none) (fun _ => true)
    ((symbolic.x448Dh (symbolicPair 2).publicKey (symbolicPair 4).privateKey).getD (zeroBytes _))

/-- A lost save and a reboot between two messages. -/
def lostSaveRun : List SendAction :=
  [.encrypt false false (fun _ => false) [1] 300, .reboot true,
    .encrypt false false (fun _ => true) [2] 300]

/-- The second message then uses the keys of the first for another plaintext. -/
theorem released_keys_reused_after_lost_save :
    ¬ NoKeyReuse (runFrom (SendDevice.step symbolic 0) sampleSendDevice lostSaveRun).released := by
  have hload : ratchetReload (sampleSendDevice.step symbolic 0
      (.encrypt false false (fun _ => false) [1] 300)).nvs 0 = some sampleSession :=
    sampleDevice_reload
  have hreboot : ((sampleSendDevice.step symbolic 0 (.encrypt false false (fun _ => false) [1]
      300)).step symbolic 0 (.reboot true)).state = sampleSession := by
    rw [SendDevice.step_reboot_true, hload, Option.getD_some]
  intro h
  simp only [lostSaveRun, runFrom_cons, runFrom_nil] at h
  generalize hs : (sampleSendDevice.step symbolic 0 (.encrypt false false (fun _ => false) [1]
      300)).step symbolic 0 (.reboot true) = s at h hreboot
  have hreleased : s.released = [{ chainKey := sampleSession.chainKeySend
                                   messageKey :=
                                    (symbolic.kdfChain sampleSession.chainKeySend).messageKey
                                   msgIv := (symbolic.kdfChain sampleSession.chainKeySend).msgIv
                                   plaintext := [1] }] := by
    rw [← hs]
    rfl
  simp only [SendDevice.step, hreboot, hreleased] at h
  have hbad := (List.pairwise_cons.mp h).1 _ List.mem_cons_self rfl rfl
  exact absurd hbad (by decide)

/-- With the save in place the same run uses two keys. -/
theorem released_keys_unique_saved :
    NoKeyReuse (runFrom (SendDevice.step symbolic 0) sampleSendDevice
      [.encrypt false false (fun _ => true) [1] 300,
        .encrypt false false (fun _ => true) [2] 300]).released :=
  released_keys_unique symbolic symbolic_collisionFree 0 _ _ _ _ sampleSession _ _ _ _
    sampleSession_setup rfl rfl ⟨⟨trivial, trivial⟩, ⟨trivial, trivial⟩, trivial⟩

end SimpleGo
