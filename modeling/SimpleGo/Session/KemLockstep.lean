import SimpleGo.Session.Endpoints

/-!
# The KEM states of both parties

A party is in KEM state 0, 1 or 2: it offers nothing, it has proposed a key, or it has
accepted one and encapsulated to it. `KemLink` relates the party that advanced last to its
peer: what it mixed into its sending chain is what the peer gets from its KEM field. An
ADVANCE of the peer keeps the relation with the roles exchanged, whichever settings the two
have.
-/

namespace SimpleGo

open Lib

variable {K : Type} {P : Primitives K}

/-- What holds of the PQ state of a party between two calls. -/
structure KemParty (gen : KeyGeneration P) (enabled : Bool) (pq : PqKemState) : Prop where
  user : pq.pqUserDisabled = 0
  pending : pq.pendingSsValid = 0
  state_le : pq.pqKemState ≤ 2
  active : pq.pqActive ≠ 0 ↔ pq.pqKemState ≠ 0
  off : enabled = false → pq.pqKemState = 0
  own : pq.pqKemState ≠ 0 → pq.ownKemValid ≠ 0 ∧ gen.kemPair ⟨pq.ownKemPk, pq.ownKemSk⟩

/-- `x` advanced last and mixed `chainKem` into its sending chain; `y` is its peer. -/
structure KemLink (P : Primitives K) (x y : PqKemState) (chainKem : Option (Bytes 32)) : Prop where
  accepted : x.pqKemState = 2 → y.pqKemState ≠ 0 ∧ ∃ coins,
    x.pendingCt = (P.kemEnc y.ownKemPk coins).1 ∧
      chainKem = some (P.kemEnc y.ownKemPk coins).2
  other : x.pqKemState ≠ 2 → chainKem = none
  nothing : x.pqKemState = 0 → y.pqKemState ≠ 2

/-- A fresh state is a party's. -/
theorem KemParty.zero (gen : KeyGeneration P) (enabled : Bool) : KemParty gen enabled .zero where
  user := rfl
  pending := rfl
  state_le := by decide
  active := by decide
  off _ := rfl
  own h := absurd rfl h

/-- Two fresh states are linked. -/
theorem KemLink.zero (P : Primitives K) : KemLink P .zero .zero none where
  accepted h := absurd h (by decide)
  other _ := rfl
  nothing _ := by decide

section Party

variable {gen : KeyGeneration P} {enabled : Bool} {pq : PqKemState}

/-- A party outside state 0 has PQ on and sends PQ headers. -/
theorem KemParty.sendActive (h : KemParty gen enabled pq) (hst : pq.pqKemState ≠ 0) :
    enabled = true ∧ pqSendActive enabled pq = true := by
  have hon : enabled = true := by
    cases henabled : enabled with
    | false => exact absurd (h.off henabled) hst
    | true => rfl
  refine ⟨hon, ?_⟩
  have hactive := h.active.mpr hst
  simpa [pqSendActive, hon] using hactive

/-- The KEM field a party sends. -/
theorem KemParty.emittedKem_eq (h : KemParty gen enabled pq) :
    emittedKem (pqSendActive enabled pq) pq =
      if pq.pqKemState = 0 then .nothing
      else if pq.pqKemState = 1 then .proposed pq.ownKemPk
      else .accepted pq.pendingCt pq.ownKemPk := by
  by_cases hst : pq.pqKemState = 0
  · simp [emittedKem, hst]
  · simp [emittedKem, hst, (h.sendActive hst).2]

/-- Proposing. -/
theorem KemParty.propose (h : KemParty gen true pq) {pair : KemKeyPair} (hpair : gen.kemPair pair) :
    KemParty gen true (pq.withOwn pair).withProposal where
  user := h.user
  pending := h.pending
  state_le := by change (1 : UInt8) ≤ 2; decide
  active := by
    have huser : pq.pqUserDisabled = 0 := h.user
    simp [PqKemState.withProposal, PqKemState.withOwn, huser]
  off h := by cases h
  own _ := ⟨by change (1 : UInt8) ≠ 0; decide, hpair⟩

/-- The PQ state after accepting a key and using the new secret at once. -/
private def acceptedState (pq : PqKemState) (pair : KemKeyPair) (peerPk : Bytes 1158)
    (enc : Bytes 1039 × Bytes 32) : PqKemState :=
  consumePending true (((pq.withPeer peerPk).withOwn pair).withPending enc)

/-- The new secret goes into the sending chain. -/
private theorem acceptedState_sendKem (huser : pq.pqUserDisabled = 0) (pair : KemKeyPair)
    (peerPk : Bytes 1158) (enc : Bytes 1039 × Bytes 32) :
    sendKem true (((pq.withPeer peerPk).withOwn pair).withPending enc) = some enc.2 := by
  have hactive : (((pq.withPeer peerPk).withOwn pair).withPending enc).pqActive = 1 := by
    change (if pq.pqUserDisabled = 0 then (1 : UInt8) else _) = 1
    rw [if_pos huser]
  simp only [sendKem, pqSendActive, hactive]
  rfl

/-- The state after an acceptance, with its secret used up. -/
private theorem acceptedState_eq (huser : pq.pqUserDisabled = 0) (pair : KemKeyPair)
    (peerPk : Bytes 1158) (enc : Bytes 1039 × Bytes 32) :
    acceptedState pq pair peerPk enc =
      { ((pq.withPeer peerPk).withOwn pair).withPending enc with
        pendingSs := zeroBytes _, pendingSsValid := 0 } := by
  rw [acceptedState, consumePending, acceptedState_sendKem huser]
  rfl

/-- It is a party's. -/
private theorem acceptedState_party (huser : pq.pqUserDisabled = 0) {pair : KemKeyPair}
    (hpair : gen.kemPair pair) (peerPk : Bytes 1158) (enc : Bytes 1039 × Bytes 32) :
    KemParty gen true (acceptedState pq pair peerPk enc) := by
  rw [acceptedState_eq huser]
  exact
    { user := huser
      pending := rfl
      state_le := by change (2 : UInt8) ≤ 2; decide
      active := by
        change (if pq.pqUserDisabled = 0 then (1 : UInt8) else _) ≠ 0 ↔ (2 : UInt8) ≠ 0
        rw [if_pos huser]
        decide
      off := fun h => by cases h
      own := fun _ => ⟨by change (1 : UInt8) ≠ 0; decide, hpair⟩ }

/-- It is linked with the state whose key it accepted. -/
private theorem acceptedState_link (huser : pq.pqUserDisabled = 0) (pair : KemKeyPair)
    {x : PqKemState} (hx : x.pqKemState ≠ 0) (coins : Bytes 32) :
    KemLink P (acceptedState pq pair x.ownKemPk (P.kemEnc x.ownKemPk coins)) x
      (some (P.kemEnc x.ownKemPk coins).2) := by
  rw [acceptedState_eq huser]
  exact
    { accepted := fun _ => ⟨hx, coins, rfl, rfl⟩
      other := fun h => absurd rfl h
      nothing := fun h => absurd (show (2 : UInt8) = 0 from h) (by decide) }

/-- Between two calls there is no secret to send. -/
theorem KemParty.sendKem_eq (h : KemParty gen enabled pq) : sendKem enabled pq = none := by
  simp [sendKem, h.pending]

/-- A party has no pending secret to use up. -/
theorem KemParty.consumePending_eq (h : KemParty gen enabled pq) :
    consumePending enabled pq = pq := by
  simp [consumePending, h.sendKem_eq]

end Party

/-- The KEM step of an ADVANCE on the peer's header: it returns the secret the peer mixed in,
and the roles are exchanged. -/
theorem KemLink.advance {gen : KeyGeneration P} {enabledX enabledY : Bool} {x y : PqKemState}
    {chainKem : Option (Bytes 32)} (hx : KemParty gen enabledX x) (hy : KemParty gen enabledY y)
    (h : KemLink P x y chainKem) {draws : KemDraws} (hdraws : draws.Succeed gen)
    {hdr : ParsedMsgHeader} (hhdr : hdr.kem = emittedKem (pqSendActive enabledX x) x) :
    let step := kemStep P enabledY draws (some hdr) y
    step.kemSs = chainKem ∧ KemParty gen enabledY (consumePending enabledY step.pq) ∧
      KemLink P (consumePending enabledY step.pq) x (sendKem enabledY step.pq) := by
  obtain ⟨pair, hpair, hgen⟩ := hdraws.keyPair
  obtain ⟨coins, hcoins⟩ := hdraws.encCoins
  have hdec := hdraws.decOk
  have hlate := hdraws.late
  rw [hx.emittedKem_eq] at hhdr
  -- a step that changes nothing leaves the peer in a state that has no secret to send
  have hsame (hx2 : x.pqKemState ≠ 2) (hy2 : y.pqKemState ≠ 2)
      (hy0 : y.pqKemState = 0 → x.pqKemState ≠ 2) :
      none = chainKem ∧ KemParty gen enabledY (consumePending enabledY y) ∧
        KemLink P (consumePending enabledY y) x (sendKem enabledY y) := by
    rw [hy.consumePending_eq, hy.sendKem_eq]
    exact ⟨(h.other hx2).symm, hy, fun hst => absurd hst hy2, fun _ => rfl, hy0⟩
  cases enabledY with
  | false =>
    have hy0 := hy.off rfl
    have hx2 : x.pqKemState ≠ 2 := fun hst => (h.accepted hst).1 hy0
    have hstep : kemStep P false draws (some hdr) y =
        { ret := 0, kemSs := none, pq := y, saved := false } := rfl
    rw [hstep]
    exact hsame hx2 (by rw [hy0]; decide) (fun _ => hx2)
  | true =>
    rcases pqKemState_cases hx.state_le with hst | hst | hst
    · -- nothing offered: propose, or go on with the own proposal
      rw [if_pos hst] at hhdr
      have hx2 : x.pqKemState ≠ 2 := by rw [hst]; decide
      by_cases hy0 : y.pqKemState = 0
      · have hstep : kemStep P true draws (some hdr) y =
            { ret := 0, kemSs := none, pq := (y.withOwn pair).withProposal, saved := true } := by
          simp [kemStep, pqRecvProcess, hhdr, hy0, hpair, hlate]
        have hparty := hy.propose hgen
        rw [hstep]
        dsimp only
        rw [hparty.consumePending_eq, hparty.sendKem_eq]
        refine ⟨(h.other hx2).symm, hparty, ?_, fun _ => rfl, ?_⟩
        · intro h2
          exact absurd (show (1 : UInt8) = 2 from h2) (by decide)
        · intro h0
          exact absurd (show (1 : UInt8) = 0 from h0) (by decide)
      · have hstep : kemStep P true draws (some hdr) y =
            { ret := 0, kemSs := none, pq := y, saved := false } := by
          simp [kemStep, pqRecvProcess, hhdr, hy0]
        rw [hstep]
        exact hsame hx2 (h.nothing hst) (fun h0 => absurd h0 hy0)
    · -- a proposal: accept it
      rw [if_neg (by rw [hst]; decide), if_pos hst] at hhdr
      have hx2 : x.pqKemState ≠ 2 := by rw [hst]; decide
      have hstep : kemStep P true draws (some hdr) y =
          { ret := 0, kemSs := none
            pq := ((y.withPeer x.ownKemPk).withOwn pair).withPending
              (P.kemEnc x.ownKemPk coins)
            saved := true } := by
        simp [kemStep, pqRecvProcess, hhdr, hpair, hcoins, hlate]
      rw [hstep]
      dsimp only
      rw [acceptedState_sendKem hy.user]
      exact ⟨(h.other hx2).symm, acceptedState_party hy.user hgen _ _,
        acceptedState_link hy.user pair (by rw [hst]; decide) coins⟩
    · -- an acceptance: take its secret and accept the next key
      rw [if_neg (by rw [hst]; decide), if_neg (by rw [hst]; decide)] at hhdr
      obtain ⟨hy0, sent, hct, hkem⟩ := h.accepted hst
      obtain ⟨hown, hownPair⟩ := hy.own hy0
      have hss : P.kemDec x.pendingCt y.ownKemSk = (P.kemEnc y.ownKemPk sent).2 := by
        rw [hct]
        exact gen.kem_correct _ hownPair sent
      have hstep : kemStep P true draws (some hdr) y =
          { ret := 0, kemSs := some (P.kemDec x.pendingCt y.ownKemSk)
            pq := (({ y with ownKemSk := zeroBytes _ }.withPeer x.ownKemPk).withOwn pair).withPending
              (P.kemEnc x.ownKemPk coins)
            saved := true } := by
        simp [kemStep, pqRecvProcess, hhdr, hown, hdec, hpair, hcoins, hlate]
      have huser : ({ y with ownKemSk := zeroBytes _ } : PqKemState).pqUserDisabled = 0 := hy.user
      rw [hstep]
      dsimp only
      rw [acceptedState_sendKem huser, hss, hkem]
      exact ⟨rfl, acceptedState_party huser hgen _ _,
        acceptedState_link huser pair (by rw [hst]; decide) coins⟩

end SimpleGo
