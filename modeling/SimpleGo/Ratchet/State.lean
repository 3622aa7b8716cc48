import SimpleGo.Crypto.Primitives

/-!
# Ratchet state and its initialisation

`ratchet_state_t` in two parts: the fields before `pq`, which are one NVS blob, and
`pq_kem_state_t`. A slot starts zeroed and becomes a session by `ratchet_x3dh_sender` and
`ratchet_init_sender`. A validity flag of the PQ part is a byte and is tested against zero.
-/

namespace SimpleGo

open Lib

variable {K : Type}

/-- `MAX_RATCHETS` and `MAX_CONTACTS`. -/
def maxContacts : ℕ := 128

/-- `pq_kem_state_t`. -/
structure PqKemState where
  pqActive : UInt8
  pqUserDisabled : UInt8
  pqKemState : UInt8
  ownKemPk : Bytes 1158
  ownKemSk : Bytes 1763
  ownKemValid : UInt8
  peerKemPk : Bytes 1158
  peerKemValid : UInt8
  pendingCt : Bytes 1039
  pendingCtValid : UInt8
  pendingSs : Bytes 32
  pendingSsValid : UInt8
  deriving DecidableEq

/-- The zeroed PQ state. -/
def PqKemState.zero : PqKemState where
  pqActive := 0
  pqUserDisabled := 0
  pqKemState := 0
  ownKemPk := zeroBytes _
  ownKemSk := zeroBytes _
  ownKemValid := 0
  peerKemPk := zeroBytes _
  peerKemValid := 0
  pendingCt := zeroBytes _
  pendingCtValid := 0
  pendingSs := zeroBytes _
  pendingSsValid := 0

/-- `ratchet_state_t` up to its `pq` field. -/
structure RatchetClassical (K : Type) where
  rootKey : K
  headerKeySend : K
  headerKeyRecv : K
  nextHeaderKeySend : K
  nextHeaderKeyRecv : K
  chainKeySend : K
  chainKeyRecv : K
  dhSelf : X448KeyPair
  dhPeer : Bytes 56
  msgNumSend : UInt32
  msgNumRecv : UInt32
  prevChainLen : UInt32
  initialized : Bool
  assocData : Bytes 112

/-- `ratchet_state_t`. -/
structure RatchetState (K : Type) extends RatchetClassical K where
  pq : PqKemState

/-- The zeroed slot. -/
def RatchetState.zero (P : Primitives K) : RatchetState K where
  rootKey := P.zeroKey
  headerKeySend := P.zeroKey
  headerKeyRecv := P.zeroKey
  nextHeaderKeySend := P.zeroKey
  nextHeaderKeyRecv := P.zeroKey
  chainKeySend := P.zeroKey
  chainKeyRecv := P.zeroKey
  dhSelf := ⟨zeroBytes _, zeroBytes _⟩
  dhPeer := zeroBytes _
  msgNumSend := 0
  msgNumRecv := 0
  prevChainLen := 0
  initialized := false
  assocData := zeroBytes _
  pq := .zero

/-- The three X3DH secrets, concatenated. -/
def x3dhSecrets (P : Primitives K) (peerKey1 peerKey2 : Bytes 56) (ourKey1 ourKey2 : X448KeyPair) :
    Option (List UInt8) := do
  let dh1 ← P.x448Dh peerKey1 ourKey2.privateKey
  let dh2 ← P.x448Dh peerKey2 ourKey1.privateKey
  let dh3 ← P.x448Dh peerKey2 ourKey2.privateKey
  return dh1.toList ++ dh2.toList ++ dh3.toList

/-- `ratchet_x3dh_sender`: `none` where it returns false, with the state untouched. -/
def ratchetX3dhSender (P : Primitives K) (peerKey1 peerKey2 : Bytes 56)
    (ourKey1 ourKey2 : X448KeyPair) (st : RatchetState K) : Option (RatchetState K) := do
  let dhCombined ← x3dhSecrets P peerKey1 peerKey2 ourKey1 ourKey2
  return { st with
    headerKeySend := P.kdf (.x3dh dhCombined) 0
    nextHeaderKeyRecv := P.kdf (.x3dh dhCombined) 1
    rootKey := P.kdf (.x3dh dhCombined) 2
    assocData := ourKey1.publicKey ++ peerKey1 }

/-- `ratchet_init_sender`, without the save that ends it. The DH inputs are stored before
the DH can fail. -/
def ratchetInitSender (P : Primitives K) (peerDhPublic : Bytes 56) (ourKey2 : X448KeyPair)
    (st : RatchetState K) : Bool × RatchetState K :=
  let st := { st with dhSelf := ourKey2, dhPeer := peerDhPublic }
  match P.x448Dh peerDhPublic ourKey2.privateKey with
  | none => (false, st)
  | some dhOut =>
    let keys := P.kdfRoot st.rootKey dhOut none
    (true, { st with
      rootKey := keys.newRootKey
      chainKeySend := keys.chainKey
      nextHeaderKeySend := keys.nextHeaderKey
      msgNumSend := 0
      prevChainLen := 0
      initialized := true })

/-- A session on a zeroed slot, as the handshake sets it up: both calls return true. -/
def ratchetSetup (P : Primitives K) (peerKey1 peerKey2 : Bytes 56)
    (ourKey1 ourKey2 : X448KeyPair) : Option (RatchetState K) :=
  match ratchetX3dhSender P peerKey1 peerKey2 ourKey1 ourKey2 (.zero P) with
  | none => none
  | some st =>
    match ratchetInitSender P peerKey2 ourKey2 st with
    | (true, st) => some st
    | (false, _) => none

/-- The state a set up session starts in. -/
theorem ratchetSetup_eq_some {P : Primitives K} {peerKey1 peerKey2 : Bytes 56}
    {ourKey1 ourKey2 : X448KeyPair} {st : RatchetState K}
    (h : ratchetSetup P peerKey1 peerKey2 ourKey1 ourKey2 = some st) :
    ∃ dhCombined dhOut, x3dhSecrets P peerKey1 peerKey2 ourKey1 ourKey2 = some dhCombined ∧
      P.x448Dh peerKey2 ourKey2.privateKey = some dhOut ∧
      let keys := P.kdfRoot (P.kdf (.x3dh dhCombined) 2) dhOut none
      st =
        { RatchetState.zero P with
          headerKeySend := P.kdf (.x3dh dhCombined) 0
          nextHeaderKeyRecv := P.kdf (.x3dh dhCombined) 1
          assocData := ourKey1.publicKey ++ peerKey1
          dhSelf := ourKey2
          dhPeer := peerKey2
          rootKey := keys.newRootKey
          chainKeySend := keys.chainKey
          nextHeaderKeySend := keys.nextHeaderKey
          initialized := true } := by
  simp only [ratchetSetup, ratchetX3dhSender] at h
  cases hx3dh : x3dhSecrets P peerKey1 peerKey2 ourKey1 ourKey2 with
  | none => simp [hx3dh] at h
  | some dhCombined =>
    simp only [hx3dh, Option.bind_eq_bind, Option.bind_some, Option.pure_def, ratchetInitSender]
      at h
    cases hdh : P.x448Dh peerKey2 ourKey2.privateKey with
    | none => simp [hdh] at h
    | some dhOut =>
      simp only [hdh, Option.some.injEq] at h
      exact ⟨dhCombined, dhOut, rfl, rfl, h.symm⟩

/-- A set up session has no PQ state. -/
theorem ratchetSetup_pq {P : Primitives K} {peerKey1 peerKey2 : Bytes 56}
    {ourKey1 ourKey2 : X448KeyPair} {st : RatchetState K}
    (h : ratchetSetup P peerKey1 peerKey2 ourKey1 ourKey2 = some st) : st.pq = .zero := by
  obtain ⟨_, _, -, -, hst⟩ := ratchetSetup_eq_some h
  rw [hst]
  rfl

end SimpleGo
