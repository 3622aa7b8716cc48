import SimpleGo.Ratchet.Header
import SimpleGo.Ratchet.Persist

/-!
# The PQ state machine on the receiving side

`pq_recv_process` acts on the KEM field of a header that opened under the next header key.
The environment decides which keys are drawn and which operations fail: a precomputed key
pair is used when there is one, key generation and encapsulation may fail or time out.

A request that times out stays in the queue of the crypto task with its pointers into the
working copy. `LateRequest` is what such a request writes when its turn comes, into whichever
session the working copy holds by then.
-/

namespace SimpleGo

open Lib

variable {K : Type}

/-- A request whose call has given up waiting, with the contact the call was for and what the
crypto task writes through the pointers it was given. -/
inductive LateRequest where
  /-- `pq_crypto_keygen` into `own_kem_pk` and `own_kem_sk`. -/
  | keygen (slot : ℕ) (pair : KemKeyPair)
  /-- `pq_crypto_enc` into `pending_ct` and `pending_ss`. -/
  | enc (slot : ℕ) (ct : Bytes 1039) (ss : Bytes 32)

/-- The contact whose call made the request. -/
def LateRequest.slot : LateRequest → ℕ
  | keygen slot _ => slot
  | enc slot _ _ => slot

/-- Whether the request is an encapsulation. -/
def LateRequest.isEnc : LateRequest → Bool
  | keygen _ _ => false
  | enc _ _ _ => true

/-- What the crypto task answers during one call. -/
structure KemDraws where
  /-- `pq_crypto_get_precomputed`. -/
  precomputed : Option KemKeyPair
  /-- `pq_crypto_keygen`, asked when there is no precomputed pair. -/
  keygen : Option KemKeyPair
  /-- Coins of `pq_crypto_enc`; `none` where it fails. -/
  encCoins : Option (Bytes 32)
  /-- Whether `pq_crypto_dec` succeeds. -/
  decOk : Bool
  /-- Requests of earlier calls that are carried out after this call has its key pair and before
  it saves it. A step that fails saves nothing, so that there they count as carried out after
  it. -/
  late : List LateRequest := []

/-- The key pair a call obtains, precomputed or generated. -/
def KemDraws.keyPair (draws : KemDraws) : Option KemKeyPair := draws.precomputed <|> draws.keygen

/-- What `pq_recv_process` leaves: its result, the secret it puts into `kem_ss`, the PQ state,
and whether it saved that state. -/
structure PqRecv where
  ret : Int
  kemSs : Option (Bytes 32)
  pq : PqKemState
  saved : Bool

/-- A new own key pair. -/
def PqKemState.withOwn (pq : PqKemState) (pair : KemKeyPair) : PqKemState :=
  { pq with ownKemPk := pair.publicKey, ownKemSk := pair.secretKey, ownKemValid := 1 }

/-- The peer's public key. -/
def PqKemState.withPeer (pq : PqKemState) (kemPk : Bytes 1158) : PqKemState :=
  { pq with peerKemPk := kemPk, peerKemValid := 1 }

/-- Encapsulation to the peer's key, kept for the next send, and state 2 (accepted). -/
def PqKemState.withPending (pq : PqKemState) (enc : Bytes 1039 × Bytes 32) : PqKemState :=
  { pq with
    pendingCt := enc.1, pendingSs := enc.2, pendingCtValid := 1, pendingSsValid := 1
    pqKemState := 2
    pqActive := if pq.pqUserDisabled = 0 then 1 else pq.pqActive }

/-- State 1 (proposed). -/
def PqKemState.withProposal (pq : PqKemState) : PqKemState :=
  { pq with pqKemState := 1, pqActive := if pq.pqUserDisabled = 0 then 1 else pq.pqActive }

@[simp] theorem PqKemState.withOwn_ownKemPk (pq : PqKemState) (pair : KemKeyPair) :
    (pq.withOwn pair).ownKemPk = pair.publicKey := rfl

@[simp] theorem PqKemState.withOwn_ownKemSk (pq : PqKemState) (pair : KemKeyPair) :
    (pq.withOwn pair).ownKemSk = pair.secretKey := rfl

@[simp] theorem PqKemState.withProposal_ownKemPk (pq : PqKemState) :
    pq.withProposal.ownKemPk = pq.ownKemPk := rfl

@[simp] theorem PqKemState.withPending_ownKemPk (pq : PqKemState) (enc : Bytes 1039 × Bytes 32) :
    (pq.withPending enc).ownKemPk = pq.ownKemPk := rfl

@[simp] theorem PqKemState.withPeer_peerKemPk (pq : PqKemState) (kemPk : Bytes 1158) :
    (pq.withPeer kemPk).peerKemPk = kemPk := rfl

@[simp] theorem PqKemState.withPeer_peerKemValid (pq : PqKemState) (kemPk : Bytes 1158) :
    (pq.withPeer kemPk).peerKemValid = 1 := rfl

/-- One late request is carried out. No flag of the state changes with it. -/
def PqKemState.carryOutOne (pq : PqKemState) : LateRequest → PqKemState
  | .keygen _ pair => { pq with ownKemPk := pair.publicKey, ownKemSk := pair.secretKey }
  | .enc _ ct ss => { pq with pendingCt := ct, pendingSs := ss }

/-- Late requests are carried out, in the order of the queue. -/
def PqKemState.carryOut (pq : PqKemState) (late : List LateRequest) : PqKemState :=
  late.foldl PqKemState.carryOutOne pq

@[simp] theorem PqKemState.carryOut_nil (pq : PqKemState) : pq.carryOut [] = pq := rfl

/-- What every late request keeps, all of them keep. -/
theorem PqKemState.carryOut_induction {motive : PqKemState → Prop} {late : List LateRequest}
    {pq : PqKemState} (h : motive pq)
    (hone : ∀ y, motive y → ∀ r ∈ late, motive (y.carryOutOne r)) : motive (pq.carryOut late) :=
  List.foldlRecOn late _ h hone

/-- A late request leaves the flags and the peer's key. -/
theorem PqKemState.carryOut_frame (pq : PqKemState) (late : List LateRequest) :
    pq.carryOut late =
      { pq with
        ownKemPk := (pq.carryOut late).ownKemPk, ownKemSk := (pq.carryOut late).ownKemSk
        pendingCt := (pq.carryOut late).pendingCt, pendingSs := (pq.carryOut late).pendingSs } := by
  refine PqKemState.carryOut_induction (motive := fun y => y = { pq with
    ownKemPk := y.ownKemPk, ownKemSk := y.ownKemSk
    pendingCt := y.pendingCt, pendingSs := y.pendingSs }) rfl fun y hy r _ => ?_
  rw [hy]
  cases r <;> rfl

@[simp] theorem PqKemState.carryOut_pqActive (pq : PqKemState) (late : List LateRequest) :
    (pq.carryOut late).pqActive = pq.pqActive := by rw [carryOut_frame]

@[simp] theorem PqKemState.carryOut_pqUserDisabled (pq : PqKemState) (late : List LateRequest) :
    (pq.carryOut late).pqUserDisabled = pq.pqUserDisabled := by rw [carryOut_frame]

@[simp] theorem PqKemState.carryOut_pqKemState (pq : PqKemState) (late : List LateRequest) :
    (pq.carryOut late).pqKemState = pq.pqKemState := by rw [carryOut_frame]

@[simp] theorem PqKemState.carryOut_ownKemValid (pq : PqKemState) (late : List LateRequest) :
    (pq.carryOut late).ownKemValid = pq.ownKemValid := by rw [carryOut_frame]

@[simp] theorem PqKemState.carryOut_pendingSsValid (pq : PqKemState) (late : List LateRequest) :
    (pq.carryOut late).pendingSsValid = pq.pendingSsValid := by rw [carryOut_frame]

/-- Key generations leave the pending ciphertext and secret. -/
theorem PqKemState.carryOut_pending {late : List LateRequest}
    (h : ∀ r ∈ late, r.isEnc = false) (pq : PqKemState) :
    (pq.carryOut late).pendingCt = pq.pendingCt ∧ (pq.carryOut late).pendingSs = pq.pendingSs := by
  refine PqKemState.carryOut_induction
    (motive := fun y => y.pendingCt = pq.pendingCt ∧ y.pendingSs = pq.pendingSs) ⟨rfl, rfl⟩
    fun y hy r hr => ?_
  cases r with
  | keygen slot pair => exact hy
  | enc slot ct ss => cases h _ hr

/-- `pq_recv_process`. Its last line, for a tag that is none of the three, has no case here:
a parsed header carries one of them. -/
def pqRecvProcess (P : Primitives K) (enabled : Bool) (draws : KemDraws) (kem : MsgKem)
    (pq : PqKemState) : PqRecv :=
  match kem with
  | .nothing =>
    if enabled && pq.pqKemState == 0 then
      match draws.keyPair with
      | none => { ret := -1, kemSs := none, pq, saved := false }
      | some pair =>
        { ret := 0, kemSs := none, pq := ((pq.withOwn pair).carryOut draws.late).withProposal
          saved := true }
    else { ret := 0, kemSs := none, pq, saved := false }
  | .proposed kemPk =>
    let pq := pq.withPeer kemPk
    match draws.keyPair with
    | none => { ret := -2, kemSs := none, pq, saved := false }
    | some pair =>
      let pq := pq.withOwn pair
      match draws.encCoins with
      | none => { ret := -3, kemSs := none, pq, saved := false }
      | some coins =>
        { ret := 0, kemSs := none
          pq := (pq.carryOut draws.late).withPending (P.kemEnc kemPk coins), saved := true }
  | .accepted kemCt kemPk =>
    if pq.ownKemValid = 0 then { ret := 0, kemSs := none, pq, saved := false }
    else if !draws.decOk then { ret := -4, kemSs := none, pq, saved := false }
    else
      let kemSs := P.kemDec kemCt pq.ownKemSk
      let pq := { pq with ownKemSk := zeroBytes _ }.withPeer kemPk
      match draws.keyPair with
      | none =>
        { ret := -5, kemSs := some kemSs, pq := { pq with ownKemValid := 0 }, saved := false }
      | some pair =>
        let pq := pq.withOwn pair
        match draws.encCoins with
        | none => { ret := -6, kemSs := some kemSs, pq, saved := false }
        | some coins =>
          { ret := 0, kemSs := some kemSs
            pq := (pq.carryOut draws.late).withPending (P.kemEnc kemPk coins), saved := true }

/-- The KEM step of an ADVANCE: it runs on a pending header when PQ is enabled, and a failure
is answered by going on without the secret. -/
def kemStep (P : Primitives K) (enabled : Bool) (draws : KemDraws)
    (recvPq : Option ParsedMsgHeader) (pq : PqKemState) : PqRecv :=
  match recvPq with
  | none => { ret := 0, kemSs := none, pq, saved := false }
  | some hdr =>
    if enabled then
      let r := pqRecvProcess P enabled draws hdr.kem pq
      { r with kemSs := if r.ret = 0 then r.kemSs else none }
    else { ret := 0, kemSs := none, pq, saved := false }

/-- What is sent and mixed next is the same: state, activity and the pending secret. -/
structure SamePending (pq' pq : PqKemState) : Prop where
  pqActive : pq'.pqActive = pq.pqActive
  pqUserDisabled : pq'.pqUserDisabled = pq.pqUserDisabled
  pqKemState : pq'.pqKemState = pq.pqKemState
  pendingCt : pq'.pendingCt = pq.pendingCt
  pendingSs : pq'.pendingSs = pq.pendingSs
  pendingSsValid : pq'.pendingSsValid = pq.pendingSsValid

/-- Every state agrees with itself. -/
theorem SamePending.refl (pq : PqKemState) : SamePending pq pq := ⟨rfl, rfl, rfl, rfl, rfl, rfl⟩

/-- What a KEM step can do: nothing that is sent or mixed next, also where it fails half-way;
propose; accept a proposal; or accept and take a secret. -/
theorem kemStep_cases (P : Primitives K) (enabled : Bool) (draws : KemDraws)
    (recvPq : Option ParsedMsgHeader) (pq : PqKemState) :
    ((kemStep P enabled draws recvPq pq).kemSs = none ∧
      (kemStep P enabled draws recvPq pq).saved = false ∧
      SamePending (kemStep P enabled draws recvPq pq).pq pq) ∨
    (∃ hdr pair, recvPq = some hdr ∧ enabled = true ∧ hdr.kem = .nothing ∧
      pq.pqKemState = 0 ∧ draws.keyPair = some pair ∧
      kemStep P enabled draws recvPq pq =
        { ret := 0, kemSs := none, pq := ((pq.withOwn pair).carryOut draws.late).withProposal
          saved := true }) ∨
    (∃ hdr kemPk pair coins, recvPq = some hdr ∧ enabled = true ∧
      hdr.kem = .proposed kemPk ∧ draws.keyPair = some pair ∧ draws.encCoins = some coins ∧
      kemStep P enabled draws recvPq pq =
        { ret := 0, kemSs := none
          pq := (((pq.withPeer kemPk).withOwn pair).carryOut draws.late).withPending
            (P.kemEnc kemPk coins)
          saved := true }) ∨
    (∃ hdr kemCt kemPk pair coins, recvPq = some hdr ∧ enabled = true ∧
      hdr.kem = .accepted kemCt kemPk ∧ pq.ownKemValid ≠ 0 ∧ draws.decOk = true ∧
      draws.keyPair = some pair ∧ draws.encCoins = some coins ∧
      kemStep P enabled draws recvPq pq =
        { ret := 0, kemSs := some (P.kemDec kemCt pq.ownKemSk)
          pq := ((({ pq with ownKemSk := zeroBytes _ }.withPeer kemPk).withOwn pair).carryOut
            draws.late).withPending (P.kemEnc kemPk coins)
          saved := true }) := by
  cases recvPq with
  | none => exact .inl ⟨rfl, rfl, .refl pq⟩
  | some hdr =>
    cases enabled with
    | false => exact .inl ⟨rfl, rfl, .refl pq⟩
    | true =>
      cases hkem : hdr.kem with
      | nothing =>
        by_cases hst : pq.pqKemState = 0
        · cases hpair : draws.keyPair with
          | none => left; simp [kemStep, pqRecvProcess, hkem, hst, hpair, SamePending.refl]
          | some pair =>
            right; left
            exact ⟨hdr, pair, rfl, rfl, hkem, hst, rfl, by
              simp [kemStep, pqRecvProcess, hkem, hst, hpair]⟩
        · left; simp [kemStep, pqRecvProcess, hkem, hst, SamePending.refl]
      | proposed kemPk =>
        cases hpair : draws.keyPair with
        | none =>
          left
          simp only [kemStep, pqRecvProcess, hkem, hpair, if_true]
          exact ⟨rfl, trivial, rfl, rfl, rfl, rfl, rfl, rfl⟩
        | some pair =>
          cases hcoins : draws.encCoins with
          | none =>
            left
            simp only [kemStep, pqRecvProcess, hkem, hpair, hcoins, if_true]
            exact ⟨rfl, trivial, rfl, rfl, rfl, rfl, rfl, rfl⟩
          | some coins =>
            right; right; left
            exact ⟨hdr, kemPk, pair, coins, rfl, rfl, hkem, rfl, rfl, by
              simp [kemStep, pqRecvProcess, hkem, hpair, hcoins]⟩
      | accepted kemCt kemPk =>
        by_cases hown : pq.ownKemValid = 0
        · left; simp [kemStep, pqRecvProcess, hkem, hown, SamePending.refl]
        · cases hdec : draws.decOk with
          | false => left; simp [kemStep, pqRecvProcess, hkem, hown, hdec, SamePending.refl]
          | true =>
            cases hpair : draws.keyPair with
            | none =>
              left
              simp only [kemStep, pqRecvProcess, hkem, hown, hdec, hpair, if_true, if_false,
                Bool.not_true, Bool.false_eq_true]
              exact ⟨rfl, trivial, rfl, rfl, rfl, rfl, rfl, rfl⟩
            | some pair =>
              cases hcoins : draws.encCoins with
              | none =>
                left
                simp only [kemStep, pqRecvProcess, hkem, hown, hdec, hpair, hcoins, if_true,
                  if_false, Bool.not_true, Bool.false_eq_true]
                exact ⟨rfl, trivial, rfl, rfl, rfl, rfl, rfl, rfl⟩
              | some coins =>
                right; right; right
                exact ⟨hdr, kemCt, kemPk, pair, coins, rfl, rfl, hkem, hown, rfl, rfl, rfl, by
                  simp [kemStep, pqRecvProcess, hkem, hown, hdec, hpair, hcoins]⟩

/-- `s_recv_pq_valid` after the KEM step. -/
def consumeRecvPq (enabled : Bool) (recvPq : Option ParsedMsgHeader) : Option ParsedMsgHeader :=
  if enabled then none else recvPq

/-- The secret an ADVANCE feeds into the send-side root KDF. -/
def sendKem (enabled : Bool) (pq : PqKemState) : Option (Bytes 32) :=
  if pq.pendingSsValid ≠ 0 && pqSendActive enabled pq then some pq.pendingSs else none

/-- The PQ state after that use: the secret is wiped when it was used. -/
def consumePending (enabled : Bool) (pq : PqKemState) : PqKemState :=
  if (sendKem enabled pq).isSome then { pq with pendingSs := zeroBytes _, pendingSsValid := 0 }
  else pq

end SimpleGo
