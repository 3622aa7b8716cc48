import SimpleGo.Ratchet.FailedDecrypt
import SimpleGo.Session.Lockstep

/-!
# Every delivered message is the message that was sent

From the handshake on, one of the parties is ahead of the other, whatever is sent, lost and
received. So every delivery returns its plaintext, as long as no sending chain has more than
`2 ^ 32` messages: the number in a header has 32 bits, and past that the receiver takes a
message for an old one.
-/

namespace SimpleGo

open Lib

variable {K : Type}

/-- One of the parties is ahead. -/
def SessionInv (P : Primitives K) (gen : KeyGeneration P) (dhCombined : List UInt8)
    (enabled : Side → Bool) (s : Session K) : Prop :=
  ∃ side stale fresh d, s.channel side = stale ++ fresh ∧
    Ahead P gen dhCombined (enabled side) (enabled side.peer) (s.endpoint side)
      (s.endpoint side.peer) stale fresh (s.channel side.peer) d

section Steps

variable {P : Primitives K} {gen : KeyGeneration P} {dhCombined : List UInt8} (idx : ℕ)
  {enabled : Side → Bool} {s : Session K}

/-- Sending keeps the relation. -/
theorem SessionInv.send (h : SessionInv P gen dhCombined enabled s) {side : Side}
    {plaintext : List UInt8} {paddedMsgLen : ℕ}
    (hfits : SendFits (enabled side) (s.endpoint side).state plaintext paddedMsgLen)
    (hlt : (s.endpoint side).sentInChain < 2 ^ 32) :
    SessionInv P gen dhCombined enabled
      (s.step P idx enabled (.send side plaintext paddedMsgLen)) := by
  obtain ⟨ahead, stale, fresh, d, hchannel, hahead⟩ := h
  rcases side.eq_or_eq_peer ahead with rfl | rfl
  · refine ⟨side, stale,
      fresh ++ ((s.endpoint side).send P idx (enabled side) plaintext paddedMsgLen).2,
      d, ?_, ?_⟩
    · simp only [Session.step, Function.update_self, hchannel, List.append_assoc]
    · simp only [Session.step, Function.update_self, ne_eq, Side.peer_ne, not_false_eq_true,
        Function.update_of_ne]
      exact hahead.sendX idx hfits hlt
  · refine ⟨ahead, stale, fresh, d, ?_, ?_⟩
    · simp only [Session.step, ne_eq, Side.ne_peer, not_false_eq_true, Function.update_of_ne,
        hchannel]
    · simp only [Session.step, Function.update_self, ne_eq, Side.ne_peer, not_false_eq_true,
        Function.update_of_ne]
      exact hahead.sendY idx hfits hlt

/-- Losing a message keeps the relation. -/
theorem SessionInv.drop (h : SessionInv P gen dhCombined enabled s) (side : Side) :
    SessionInv P gen dhCombined enabled (s.step P idx enabled (.drop side)) := by
  obtain ⟨ahead, stale, fresh, d, hchannel, hahead⟩ := h
  rcases side.eq_or_eq_peer ahead with rfl | rfl
  · refine ⟨side, stale, fresh, d, ?_, ?_⟩
    · simp only [Session.step, ne_eq, Side.ne_peer, not_false_eq_true, Function.update_of_ne,
        hchannel]
    · simp only [Session.step, Function.update_self]
      exact hahead.dropBack
  · simp only [SessionInv, Session.step, Side.peer_peer]
    cases stale with
    | nil =>
      refine ⟨ahead, [], fresh.tail, d, ?_, ?_⟩
      · rw [Function.update_self, hchannel, List.nil_append, List.nil_append]
      · rw [Function.update_of_ne (Side.peer_ne _)]
        exact hahead.dropFresh
    | cons item rest =>
      refine ⟨ahead, rest, fresh, d, ?_, ?_⟩
      · rw [Function.update_self, hchannel]
        rfl
      · rw [Function.update_of_ne (Side.peer_ne _)]
        exact hahead.dropStale

/-- A delivery returns its plaintext and keeps the relation. -/
theorem SessionInv.receive (hP : P.CollisionFree) (hgcm : P.GcmCorrect)
    (h : SessionInv P gen dhCombined enabled s) {side : Side} {env : Delivery}
    (henv : env.Succeeds gen) {item : InFlight K} {rest : List (InFlight K)}
    (hmsg : s.channel side.peer = item :: rest)
    (hseparated : HeaderSeparated P (s.endpoint side).state env item) :
    ((s.endpoint side).receive P idx (enabled side) env item.wire).2 = some item.plaintext ∧
      SessionInv P gen dhCombined enabled (s.step P idx enabled (.receive side env)) := by
  obtain ⟨ahead, stale, fresh, d, hchannel, hahead⟩ := h
  rcases side.eq_or_eq_peer ahead with rfl | rfl
  · rw [hmsg] at hahead
    obtain ⟨hplain, hnext⟩ := hahead.receiveX idx hgcm henv
    refine ⟨hplain, side, stale, fresh, { d with backNext := item.number + 1 }, ?_, ?_⟩
    · simp only [Session.step, hmsg, ne_eq, Side.ne_peer, not_false_eq_true,
        Function.update_of_ne, hchannel]
    · simp only [Session.step, hmsg, Function.update_self, ne_eq, Side.peer_ne,
        not_false_eq_true, Function.update_of_ne]
      exact hnext
  · rw [Side.peer_peer, hchannel] at hmsg
    have hstep : s.step P idx enabled (.receive ahead.peer env) =
        { endpoint := Function.update s.endpoint ahead.peer
            ((s.endpoint ahead.peer).receive P idx (enabled ahead.peer) env item.wire).1
          channel := Function.update s.channel ahead rest } := by
      simp only [Session.step, Side.peer_peer, hchannel, hmsg]
    rw [hstep]
    cases stale with
    | nil =>
      rw [List.nil_append] at hmsg
      rw [hmsg] at hahead
      obtain ⟨hplain, d', hnext⟩ := hahead.receiveY_fresh idx hP hgcm henv hseparated
      refine ⟨hplain, ahead.peer, s.channel ahead.peer, [], d', ?_, ?_⟩
      · simp only [ne_eq, Side.peer_ne, not_false_eq_true, Function.update_of_ne, List.append_nil]
      · simp only [Function.update_self, Side.peer_peer, ne_eq, Side.ne_peer, not_false_eq_true,
          Function.update_of_ne]
        exact hnext
    | cons first stale =>
      rw [List.cons_append, List.cons.injEq] at hmsg
      obtain ⟨rfl, hrest⟩ := hmsg
      obtain ⟨hplain, hnext⟩ := hahead.receiveY_stale idx hgcm henv
      refine ⟨hplain, ahead, stale, fresh, { d with staleNext := first.number + 1 }, ?_, ?_⟩
      · simp only [Function.update_self, hrest]
      · simp only [Function.update_self, ne_eq, Side.ne_peer, Side.peer_ne, not_false_eq_true,
          Function.update_of_ne]
        exact hnext

/-- An admitted step keeps the relation and delivers what was sent. -/
theorem SessionInv.step (hP : P.CollisionFree) (hgcm : P.GcmCorrect) (s : Session K)
    (a : SessionAction) (h : SessionInv P gen dhCombined enabled s)
    (ha : a.Supported gen enabled s ∧ a.ChainBounded s) :
    a.Delivers P idx enabled s ∧ SessionInv P gen dhCombined enabled (s.step P idx enabled a) := by
  cases a with
  | send side plaintext paddedMsgLen => exact ⟨trivial, h.send idx ha.1 ha.2⟩
  | drop side => exact ⟨trivial, h.drop idx side⟩
  | receive side env =>
    obtain ⟨⟨henv, hseparated⟩, -⟩ := ha
    constructor
    · intro item rest hmsg
      exact (h.receive idx hP hgcm henv hmsg (hseparated item rest hmsg)).1
    · cases hmsg : s.channel side.peer with
      | nil =>
        have hstep : s.step P idx enabled (.receive side env) = s := by
          simp only [Session.step, hmsg]
        rw [hstep]
        exact h
      | cons item rest => exact (h.receive idx hP hgcm henv hmsg (hseparated item rest hmsg)).2

end Steps

/-- The initiator is ahead at the start. -/
theorem SessionInv.start {P : Primitives K} {gen : KeyGeneration P} {enabled : Side → Bool}
    {peerKey1 peerKey2 : Bytes 56} {ourKey1 ourKey2 dhSelfB : X448KeyPair}
    {x3dh a : RatchetState K}
    (hx3dh : ratchetX3dhSender P peerKey1 peerKey2 ourKey1 ourKey2 (.zero P) = some x3dh)
    (ha : ratchetSetup P peerKey1 peerKey2 ourKey1 ourKey2 = some a)
    (hself : gen.dhPair ourKey2) (hpeer : gen.dhPair dhSelfB)
    (hpub : dhSelfB.publicKey = a.dhPeer) :
    ∃ dhCombined, SessionInv P gen dhCombined enabled
      (.start a (mirroredState P x3dh.rootKey dhSelfB a)) := by
  obtain ⟨dhCombined, dhOut, hsecrets, hdh, rfl⟩ := ratchetSetup_eq_some ha
  have hroot : x3dh.rootKey = P.kdf (.x3dh dhCombined) 2 := by
    rw [ratchetX3dhSender, hsecrets] at hx3dh
    simp only [Option.bind_eq_bind, Option.bind_some, Option.pure_def, Option.some.injEq] at hx3dh
    rw [← hx3dh]
  rw [hroot]
  have hlevel : RootAt P dhCombined 0 (P.kdf (.x3dh dhCombined) 2) := .x3dh
  refine ⟨dhCombined, .alice, [], [],
    { staleChain := P.zeroKey, staleNext := 0, backChain := P.zeroKey, backNext := 0
      freshChain := (P.kdfRoot (P.kdf (.x3dh dhCombined) 2) dhOut none).chainKey
      dhOut, chainKem := none }, rfl, ?_⟩
  exact
    { initX := rfl
      initY := rfl
      assoc := rfl
      header := rfl
      nextHeader := rfl
      backHeader := rfl
      dhX := hself
      dhY := hpeer
      dh := by
        change P.x448Dh dhSelfB.publicKey ourKey2.privateKey = some dhOut
        rw [hpub]
        exact hdh
      root := rfl
      chain := rfl
      next := rfl
      sendsX := ⟨rfl, rfl⟩
      sendsY := ⟨rfl, rfl⟩
      receivesX := ⟨rfl, rfl⟩
      receivesY := ⟨rfl, rfl⟩
      staleSealed := fun item hitem => by cases hitem
      staleNumbers := ⟨0, Nat.le_refl 0⟩
      freshSealed := fun item hitem => by cases hitem
      freshNumbers := Nat.le_refl 0
      backSealed := fun item hitem => by cases hitem
      backNumbers := Nat.le_refl 0
      kemX := KemParty.zero gen _
      kemY := KemParty.zero gen _
      kemLink := KemLink.zero P
      orderX := ⟨1, 0, .root dhOut none hlevel, .x3dh 1, Nat.zero_le _, .inl rfl⟩
      orderY := ⟨0, 0, hlevel, .x3dh 0, Nat.le_refl 0, .inl rfl⟩ }

/-- Every delivered message decrypts to the plaintext that was sent, in every run in which no
sending chain has more than `2 ^ 32` messages. Bob may send before he has received. -/
theorem session_delivers (P : Primitives K) (hP : P.CollisionFree) (hgcm : P.GcmCorrect)
    (gen : KeyGeneration P) (idx : ℕ) (enabled : Side → Bool) (peerKey1 peerKey2 : Bytes 56)
    (ourKey1 ourKey2 dhSelfB : X448KeyPair) (x3dh a : RatchetState K)
    (hx3dh : ratchetX3dhSender P peerKey1 peerKey2 ourKey1 ourKey2 (.zero P) = some x3dh)
    (ha : ratchetSetup P peerKey1 peerKey2 ourKey1 ourKey2 = some a)
    (hself : gen.dhPair ourKey2) (hpeer : gen.dhPair dhSelfB)
    (hpub : dhSelfB.publicKey = a.dhPeer) (actions : List SessionAction)
    (hrun : StepsMeet (Session.step P idx enabled)
      (fun s act => act.Supported gen enabled s ∧ act.ChainBounded s)
      (.start a (mirroredState P x3dh.rootKey dhSelfB a)) actions) :
    StepsMeet (Session.step P idx enabled) (SessionAction.Delivers P idx enabled)
      (.start a (mirroredState P x3dh.rootKey dhSelfB a)) actions := by
  obtain ⟨dhCombined, hstart⟩ := SessionInv.start hx3dh ha hself hpeer hpub
  have hstep : ∀ s act, SessionInv P gen dhCombined enabled s →
      act.Supported gen enabled s ∧ act.ChainBounded s →
      SessionInv P gen dhCombined enabled (s.step P idx enabled act) :=
    fun s act hs hact => (hs.step idx hP hgcm s act hact).2
  exact hrun.invariant_step hstep (fun s act hs hact => (hs.step idx hP hgcm s act hact).1) hstart

/-! ## A number that wraps -/

/-- What a message of a session without PQ does at its sender. -/
theorem Endpoint.send_inactive (P : Primitives K) (idx : ℕ) (enabled : Bool) (party : Endpoint K)
    (hinit : party.state.initialized = true) (hactive : party.state.pq.pqActive = 0)
    (hstate : party.state.pq.pqKemState ≤ 2) (plaintext : List UInt8) (paddedMsgLen : ℕ) :
    party.send P idx enabled plaintext paddedMsgLen =
      ({ party with state := party.state.sent P, sentInChain := party.sentInChain + 1 },
        [{ wire := encRatchetMessage P party.state (emittedHeader enabled party.state) plaintext
            paddedMsgLen
           plaintext, sender := party.state, number := party.sentInChain }]) := by
  have hpq : pqSendActive enabled party.state.pq = false := by simp [pqSendActive, hactive]
  have hlen : effectivePaddedLen (pqSendActive enabled party.state.pq) paddedMsgLen =
      some paddedMsgLen := by rw [hpq]; rfl
  have hout : ratchetEncrypt P idx enabled false party.state plaintext paddedMsgLen =
      { output := some (encRatchetMessage P party.state (emittedHeader enabled party.state) plaintext
          paddedMsgLen)
        state := party.state.sent P
        writes := ratchetSaveState idx (party.state.sent P) } := by
    rw [ratchetEncrypt, if_neg (by simp [hinit]), hlen,
      messageHeader_eq_emittedHeader enabled hstate]
    rfl
  rw [Endpoint.send, hout]

/-- A SAME message with a number behind the receiver's is refused. -/
theorem receive_none_of_behind {P : Primitives K} (hgcm : P.GcmCorrect) (idx : ℕ) (enabled : Bool)
    {party : Endpoint K} {sender : RatchetState K} {plaintext : List UInt8} {paddedLen : ℕ}
    {senderEnabled : Bool} {env : Delivery} (hinit : party.state.initialized = true)
    (hassoc : party.state.assocData = sender.assocData)
    (hkey : party.state.headerKeyRecv = sender.headerKeySend)
    (hnum : sender.msgNumSend < party.state.msgNumRecv)
    (hheader : env.draws.headerAlloc = true) (hbody : env.draws.bodyAlloc = true) :
    (party.receive P idx enabled env (encRatchetMessage P sender
      (emittedHeader senderEnabled sender) plaintext paddedLen)).2 = none := by
  have hcarries := carries_clientMessageOf env.before (encRatchetMessage P sender
    (emittedHeader senderEnabled sender) plaintext paddedLen) env.after
  have htry := hcarries.tryDecrypt_same hgcm (emittedHeader_length_lt _ _) hinit hassoc hkey
  change (ratchetDecryptMessage P idx enabled env.draws party.recvPq party.state
    (clientMessageOf env.before _ env.after)).body = none
  rw [hcarries.decryptMessage htry hheader hbody,
    ratchetDecryptBody_same_behind P idx enabled env.draws.body _ party.state _ rfl hnum]
  rfl

/-- The sample handshake, with Bob in the mirrored state. -/
def sampleStart : Session SymKey :=
  .start sampleSession (mirroredState symbolic
    ((ratchetX3dhSender symbolic (symbolicPair 1).publicKey (symbolicPair 2).publicKey
      (symbolicPair 3) (symbolicPair 4) (.zero symbolic)).getD (.zero symbolic)).rootKey
    (symbolicPair 2) sampleSession)

/-- A delivery in which everything succeeds. -/
def sampleDelivery : Delivery where
  before := []
  after := fun _ => 0
  draws := { headerAlloc := true, headerJunk := fun _ => 0, bodyAlloc := true
             bodyJunk := fun _ => 0, body := sampleDraws }

/-- The sample delivery finds what it needs. -/
theorem sampleDelivery_succeeds : sampleDelivery.Succeeds symbolicKeys where
  headerAlloc := rfl
  bodyAlloc := rfl
  aadAlloc := rfl
  dhSelf := ⟨symbolicPair 7, rfl, rfl⟩
  kem := ⟨⟨symbolicKemPair 5, rfl, trivial⟩, ⟨Vector.replicate 32 6, rfl⟩, rfl, rfl⟩
  late _ := rfl

/-- Alice's first message arrives. -/
def sampleMet : Session SymKey :=
  runFrom (Session.step symbolic 0 fun _ => false) sampleStart
    [.send .alice [] 16, .receive .bob sampleDelivery]

/-- The message that reaches Bob first does not open under his zero key. -/
theorem sampleStart_supported :
    StepsMeet (Session.step symbolic 0 fun _ => false)
      (fun s act => act.Supported symbolicKeys (fun _ => false) s) sampleStart
      [.send .alice [] 16, .receive .bob sampleDelivery] := by
  refine ⟨?_, ⟨sampleDelivery_succeeds, ?_⟩, trivial⟩
  · intro paddedLen hpadded
    obtain rfl : 16 = paddedLen := Option.some.inj hpadded
    exact ⟨by decide, by decide, by decide⟩
  · intro item rest hchannel _
    obtain ⟨rfl, -⟩ := List.cons.inj hchannel
    rfl

/-- Alice has sent `n` messages of her chain, and none is in flight. -/
structure AliceAt (n : ℕ) (s : Session SymKey) : Prop where
  channel : s.channel .alice = []
  state : (s.endpoint .alice).state =
    { sampleSession with
      chainKeySend := symbolic.skipChain n sampleSession.chainKeySend
      msgNumSend := UInt32.ofNat n }
  bob : s.endpoint .bob = sampleMet.endpoint .bob

/-- One more message, which is lost. -/
theorem AliceAt.lose {n : ℕ} {s : Session SymKey} (h : AliceAt n s) :
    StepsMeet (Session.step symbolic 0 fun _ => false)
        (fun s act => act.Supported symbolicKeys (fun _ => false) s) s
        [.send .alice [] 16, .drop .bob] ∧
      AliceAt (n + 1) (runFrom (Session.step symbolic 0 fun _ => false) s
        [.send .alice [] 16, .drop .bob]) := by
  have hpq : (s.endpoint .alice).state.pq = .zero := by rw [h.state]; rfl
  have hsend := Endpoint.send_inactive symbolic 0 false (s.endpoint .alice)
    (by rw [h.state]; rfl) (by rw [hpq]; rfl) (by rw [hpq]; decide) [] 16
  refine ⟨⟨?_, trivial, trivial⟩, ?_⟩
  · intro paddedLen hpadded
    rw [hpq] at hpadded
    obtain rfl : 16 = paddedLen := Option.some.inj hpadded
    exact ⟨by decide, by decide, by decide⟩
  · have hrun : runFrom (Session.step symbolic 0 fun _ => false) s
        [.send .alice [] 16, .drop .bob] =
        { endpoint := Function.update s.endpoint .alice
            { s.endpoint .alice with
              state := (s.endpoint .alice).state.sent symbolic
              sentInChain := (s.endpoint .alice).sentInChain + 1 }
          channel := s.channel } := by
      simp only [runFrom_cons, runFrom_nil, Session.step, hsend, h.channel, Side.peer,
        Function.update_self, List.nil_append, List.tail_cons, Function.update_idem, Session.mk.injEq,
        true_and]
      rw [← h.channel, Function.update_eq_self]
    rw [hrun]
    exact
      { channel := h.channel
        state := by
          simp only [Function.update_self, h.state, RatchetState.sent, RatchetState.chainStep,
            ← symbolic.skipChain_succ, ofNat_succ]
        bob := by simp only [ne_eq, reduceCtorEq, not_false_eq_true, Function.update_of_ne, h.bob] }

/-- Alice's messages 1 to `k` are lost. -/
def lostMessages (k : ℕ) : List SessionAction :=
  (List.replicate k [.send .alice [] 16, .drop .bob]).flatten

/-- Losing `k` messages. -/
theorem AliceAt.loseMany {n : ℕ} {s : Session SymKey} (h : AliceAt n s) (k : ℕ) :
    StepsMeet (Session.step symbolic 0 fun _ => false)
        (fun s act => act.Supported symbolicKeys (fun _ => false) s) s (lostMessages k) ∧
      AliceAt (n + k) (runFrom (Session.step symbolic 0 fun _ => false) s (lostMessages k)) := by
  induction k generalizing n s with
  | zero => exact ⟨trivial, h⟩
  | succ k ih =>
    obtain ⟨hmeet, hone⟩ := h.lose
    obtain ⟨hmeets, hmany⟩ := ih hone
    rw [lostMessages, List.replicate_succ, List.flatten_cons]
    refine ⟨(stepsMeet_append _ _ _ _ _).mpr ⟨hmeet, hmeets⟩, ?_⟩
    rw [runFrom_append]
    have hcount : n + 1 + k = n + (k + 1) := by omega
    rw [← hcount]
    exact hmany

/-- Alice is at her first level when Bob has met her. -/
theorem aliceAt_sampleMet : AliceAt 1 sampleMet where
  channel := rfl
  state := rfl
  bob := rfl

set_option maxRecDepth 20000 in
/-- Bob after that message: he receives on Alice's chain and expects number 1. -/
theorem sampleMet_bob :
    (sampleMet.endpoint .bob).state.initialized = true ∧
      (sampleMet.endpoint .bob).state.assocData = sampleSession.assocData ∧
      (sampleMet.endpoint .bob).state.headerKeyRecv = sampleSession.headerKeySend ∧
      (sampleMet.endpoint .bob).state.msgNumRecv = 1 := ⟨rfl, rfl, rfl, rfl⟩

/-- The message after the wrap and its delivery. -/
theorem AliceAt.wrapped {s : Session SymKey} (h : AliceAt (2 ^ 32) s) :
    StepsMeet (Session.step symbolic 0 fun _ => false)
        (fun s act => act.Supported symbolicKeys (fun _ => false) s) s
        [.send .alice [] 16, .receive .bob sampleDelivery] ∧
      ¬ StepsMeet (Session.step symbolic 0 fun _ => false)
        (SessionAction.Delivers symbolic 0 fun _ => false) s
        [.send .alice [] 16, .receive .bob sampleDelivery] := by
  have hpq : (s.endpoint .alice).state.pq = .zero := by rw [h.state]; rfl
  have hsend := Endpoint.send_inactive symbolic 0 false (s.endpoint .alice)
    (by rw [h.state]; rfl) (by rw [hpq]; rfl) (by rw [hpq]; decide) [] 16
  obtain ⟨hinit, hassoc, hkey, hnum⟩ := sampleMet_bob
  have hbob : (s.step symbolic 0 (fun _ => false) (.send .alice [] 16)).endpoint .bob =
      sampleMet.endpoint .bob := by
    simp only [Session.step, ne_eq, reduceCtorEq, not_false_eq_true, Function.update_of_ne, h.bob]
  have hchannel : (s.step symbolic 0 (fun _ => false) (.send .alice [] 16)).channel .alice =
      [{ wire := encRatchetMessage symbolic (s.endpoint .alice).state
          (emittedHeader false (s.endpoint .alice).state) [] 16
         plaintext := []
         sender := (s.endpoint .alice).state
         number := (s.endpoint .alice).sentInChain }] := by
    simp only [Session.step, hsend, h.channel, List.nil_append, Function.update_self]
  have hsame : (sampleMet.endpoint .bob).state.headerKeyRecv =
      (s.endpoint .alice).state.headerKeySend := by rw [hkey, h.state]
  rw [stepsMeet_cons, stepsMeet_cons, stepsMeet_cons, stepsMeet_cons]
  generalize s.step symbolic 0 (fun _ => false) (.send .alice [] 16) = sent at hbob hchannel
  refine ⟨⟨?_, ⟨sampleDelivery_succeeds, ?_⟩, trivial⟩, ?_⟩
  · intro paddedLen hpadded
    rw [hpq] at hpadded
    obtain rfl : 16 = paddedLen := Option.some.inj hpadded
    exact ⟨by decide, by decide, by decide⟩
  · intro item rest hitem hne
    rw [Side.peer, hchannel, List.cons.injEq] at hitem
    rw [← hitem.1, hbob] at hne
    exact absurd hsame.symm hne
  · rintro ⟨-, hdelivers, -⟩
    have hplain := hdelivers _ _ hchannel
    rw [hbob, receive_none_of_behind symbolic_gcmCorrect 0 false hinit
      (by rw [hassoc, h.state]) hsame (by rw [h.state, hnum]; decide) rfl rfl] at hplain
    cases hplain

/-- Message 0 is delivered, messages 1 to `2 ^ 32 - 1` are lost, and the next one is delivered. -/
def wrappedRun : List SessionAction :=
  [.send .alice [] 16, .receive .bob sampleDelivery] ++
    (lostMessages (2 ^ 32 - 1) ++ [.send .alice [] 16, .receive .bob sampleDelivery])

/-- The last message of that run has number 0 again, and Bob refuses it. -/
theorem session_refuses_wrapped :
    StepsMeet (Session.step symbolic 0 fun _ => false)
        (fun s act => act.Supported symbolicKeys (fun _ => false) s) sampleStart wrappedRun ∧
      ¬ StepsMeet (Session.step symbolic 0 fun _ => false)
        (SessionAction.Delivers symbolic 0 fun _ => false) sampleStart wrappedRun := by
  obtain ⟨hlost, hat⟩ := aliceAt_sampleMet.loseMany (2 ^ 32 - 1)
  obtain ⟨hmeet, hrefused⟩ := AliceAt.wrapped hat
  simp only [wrappedRun, stepsMeet_append]
  exact ⟨⟨sampleStart_supported, hlost, hmeet⟩, fun h => hrefused h.2.2⟩

/-- A message each way, with PQ on at Alice only. -/
def exchangedRun : List SessionAction :=
  [.send .alice [1] 300, .receive .bob sampleDelivery, .send .bob [2] 300,
    .receive .alice sampleDelivery]

set_option maxRecDepth 20000 in
/-- That run is delivered. -/
theorem session_delivers_exchanged :
    StepsMeet (Session.step symbolic 0 fun side => side = .alice)
      (SessionAction.Delivers symbolic 0 fun side => side = .alice) sampleStart exchangedRun := by
  refine session_delivers symbolic symbolic_collisionFree symbolic_gcmCorrect symbolicKeys 0 _
    _ _ _ _ (symbolicPair 2) _ sampleSession rfl sampleSession_setup rfl rfl rfl exchangedRun ?_
  refine ⟨⟨?_, Nat.zero_lt_succ _⟩, ⟨⟨sampleDelivery_succeeds, ?_⟩, trivial⟩, ⟨?_, ?_⟩,
    ⟨⟨sampleDelivery_succeeds, ?_⟩, trivial⟩, trivial⟩
  · intro paddedLen hpadded
    obtain rfl : 300 = paddedLen := Option.some.inj hpadded
    exact ⟨by decide, by decide, by decide⟩
  · intro item rest hchannel _
    obtain ⟨rfl, -⟩ := List.cons.inj hchannel
    rfl
  · intro paddedLen hpadded
    obtain rfl : 300 = paddedLen := Option.some.inj hpadded
    exact ⟨by decide, by decide, by decide⟩
  · exact Nat.zero_lt_succ _
  · intro item rest hchannel _
    obtain ⟨rfl, -⟩ := List.cons.inj hchannel
    rfl

end SimpleGo
