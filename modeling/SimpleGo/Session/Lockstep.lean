import SimpleGo.Ratchet.RootChain
import SimpleGo.Session.KemLockstep

/-!
# The two ratchets move in lockstep

`Ahead` relates the party that advanced last to its peer and to both channels. The channel to
the peer holds what is left of the previous sending chain, then the messages of the new one;
the channel back holds one chain. Sending, losing a message and a SAME delivery keep the
relation; the first delivery from the new chain is an ADVANCE and exchanges the roles. A
delivery that the relation covers returns its plaintext.
-/

namespace SimpleGo

open Lib

variable {K : Type}

/-! ## Messages of one chain -/

/-- A message encrypted under this header key, from this chain. -/
structure SealedIn (P : Primitives K) (enabled : Bool) (assocData : Bytes 112)
    (headerKey chain : K) (item : InFlight K) : Prop where
  wire : ∃ paddedLen, PayloadFits item.plaintext paddedLen ∧
    item.wire = encRatchetMessage P item.sender (emittedHeader enabled item.sender)
      item.plaintext paddedLen
  assocData : item.sender.assocData = assocData
  headerKey : item.sender.headerKeySend = headerKey
  chainKey : item.sender.chainKeySend = P.skipChain item.number chain
  msgNum : item.sender.msgNumSend = UInt32.ofNat item.number
  number_lt : item.number < 2 ^ 32

/-- The numbers increase, from `next` on and below `bound`. -/
def Numbered : ℕ → ℕ → List (InFlight K) → Prop
  | next, bound, [] => next ≤ bound
  | next, bound, item :: rest => next ≤ item.number ∧ Numbered (item.number + 1) bound rest

/-- A smaller first number is one too. -/
theorem Numbered.mono {next next' bound : ℕ} (hle : next' ≤ next) :
    ∀ {items : List (InFlight K)}, Numbered next bound items → Numbered next' bound items
  | [], h => hle.trans h
  | _ :: _, h => ⟨hle.trans h.1, h.2⟩

/-- The bound is not below the first number. -/
theorem Numbered.le {bound : ℕ} :
    ∀ {next : ℕ} {items : List (InFlight K)}, Numbered next bound items → next ≤ bound
  | _, [], h => h
  | _, _ :: _, h => h.1.trans ((Nat.le_succ _).trans h.2.le)

/-- Losing the oldest message. -/
theorem Numbered.tail {next bound : ℕ} {items : List (InFlight K)}
    (h : Numbered next bound items) : Numbered next bound items.tail := by
  cases items with
  | nil => exact h
  | cons item rest => exact h.2.mono (h.1.trans (Nat.le_succ _))

/-- Sending the next number. -/
theorem Numbered.concat {item : InFlight K} :
    ∀ {next : ℕ} {items : List (InFlight K)}, Numbered next item.number items →
      Numbered next (item.number + 1) (items ++ [item])
  | _, [], h => ⟨h, Nat.le_refl _⟩
  | _, _ :: _, h => ⟨h.1, h.2.concat⟩

/-- What the receiver of a chain holds: the key and the number of the next message. -/
structure Receives (P : Primitives K) (st : RatchetState K) (chain : K) (next : ℕ) : Prop where
  chainKey : st.chainKeyRecv = P.skipChain next chain
  msgNum : st.msgNumRecv = UInt32.ofNat next

/-- What the sender of a chain holds. -/
structure Sends (P : Primitives K) (party : Endpoint K) (chain : K) : Prop where
  chainKey : party.state.chainKeySend = P.skipChain party.sentInChain chain
  msgNum : party.state.msgNumSend = UInt32.ofNat party.sentInChain

section Chains

variable {P : Primitives K} {gen : KeyGeneration P} (idx : ℕ) (enabled : Bool)
  {senderEnabled : Bool} {party : Endpoint K} {item : InFlight K} {env : Delivery}
  {assocData : Bytes 112}
  {headerKey chain : K} {next : ℕ}

/-- A number of 32 bits is itself. -/
theorem toNat_ofNat_of_lt {n : ℕ} (h : n < 2 ^ 32) : (UInt32.ofNat n).toNat = n := by
  rw [UInt32.toNat_ofNat', Nat.mod_eq_of_lt h]

/-- The next number on the wire. -/
theorem ofNat_succ (n : ℕ) : (UInt32.ofNat n : UInt32) + 1 = UInt32.ofNat (n + 1) := by
  apply UInt32.toNat_inj.mp
  simp [UInt32.toNat_add, UInt32.toNat_ofNat]

/-- Skipping from the receiver's position to a message of the chain. -/
theorem bodyChainKey_skipChain {number : ℕ} (hnext : next ≤ number) (hlt : number < 2 ^ 32) :
    bodyChainKey P (UInt32.ofNat next) (UInt32.ofNat number) (P.skipChain next chain) =
      P.skipChain number chain := by
  rw [bodyChainKey, toNat_ofNat_of_lt hlt, toNat_ofNat_of_lt (hnext.trans_lt hlt),
    ← P.skipChain_add, Nat.sub_add_cancel hnext]

/-- The receiver's position after a delivered message. -/
theorem Receives.after {st : RatchetState K} {number : ℕ}
    (hkey : st.chainKeyRecv = P.nextChainKey (P.skipChain number chain))
    (hnum : st.msgNumRecv = UInt32.ofNat number + 1) : Receives P st chain (number + 1) where
  chainKey := by rw [hkey, P.skipChain_succ]
  msgNum := by rw [hnum, ofNat_succ]

/-- The message is where the pipeline expects it. -/
theorem SealedIn.carries (hitem : SealedIn P senderEnabled assocData headerKey chain item)
    (env : Delivery) : ∃ paddedLen, PayloadFits item.plaintext paddedLen ∧
      Carries (env.message item.wire) (encRatchetMessage P item.sender
        (emittedHeader senderEnabled item.sender) item.plaintext paddedLen) := by
  obtain ⟨paddedLen, hfits, hwire⟩ := hitem.wire
  refine ⟨paddedLen, hfits, ?_⟩
  rw [← hwire]
  exact carries_clientMessageOf _ _ _

/-- A delivery whose header opened is the body call on the sender's fields. -/
theorem receive_of_body {paddedLen : ℕ} {mode : DecryptMode} {out : DecryptOut K}
    (hcarries : Carries (env.message item.wire) (encRatchetMessage P item.sender
      (emittedHeader senderEnabled item.sender) item.plaintext paddedLen))
    (htry : ratchetHeaderTryDecrypt P party.state (env.message item.wire).clientMsg
      (env.message item.wire).emHeader = some (mode, emittedHeader senderEnabled item.sender))
    (henv : env.Succeeds gen)
    (hout : ratchetDecryptBody P idx enabled env.draws.body
      (some (sentHeader senderEnabled item.sender)) party.state
      (sentCall P item.sender (emittedHeader senderEnabled item.sender) item.plaintext paddedLen
        mode env.draws.bodyJunk) = out)
    (hresult : out.result = .ok item.plaintext) :
    party.receive P idx enabled env item.wire =
      ({ state := out.state
         recvPq := out.recvPq
         sentInChain := match mode with
           | .advance => 0
           | .same => party.sentInChain }, some item.plaintext) := by
  have hmsg : ratchetDecryptMessage P idx enabled env.draws party.recvPq party.state
      (env.message item.wire) = out.received := by
    rw [hcarries.decryptMessage htry henv.headerAlloc henv.bodyAlloc, hout]
  have hbody : out.received.body = some item.plaintext := by
    rw [DecryptOut.received, hresult]
    rfl
  simp only [Endpoint.receive, hmsg, htry, hbody]
  cases mode <;> rfl

/-- A SAME delivery returns the plaintext and moves the receiving chain only. -/
theorem SealedIn.receive_same (hgcm : P.GcmCorrect) (hitem : SealedIn P senderEnabled
      party.state.assocData party.state.headerKeyRecv chain item)
    (hinit : party.state.initialized = true) (hrecv : Receives P party.state chain next)
    (hnext : next ≤ item.number) (henv : env.Succeeds gen) :
    party.receive P idx enabled env item.wire =
      ({ state := party.state.applySame P (UInt32.ofNat item.number)
         recvPq := some (sentHeader senderEnabled item.sender)
         sentInChain := party.sentInChain }, some item.plaintext) := by
  obtain ⟨paddedLen, hfits, hcarries⟩ := hitem.carries env
  have htry := hcarries.tryDecrypt_same hgcm (emittedHeader_length_lt _ _) hinit
    hitem.assocData.symm hitem.headerKey.symm
  have hlt := hitem.number_lt
  have hnum : ¬ UInt32.ofNat item.number < party.state.msgNumRecv := by
    rw [hrecv.msgNum, UInt32.lt_iff_toNat_lt, toNat_ofNat_of_lt hlt,
      toNat_ofNat_of_lt (hnext.trans_lt hlt)]
    omega
  have hchain : bodyChainKey P party.state.msgNumRecv (UInt32.ofNat item.number)
      party.state.chainKeyRecv = item.sender.chainKeySend := by
    rw [hrecv.msgNum, hrecv.chainKey, bodyChainKey_skipChain hnext hlt, hitem.chainKey]
  let call := sentCall P item.sender (emittedHeader senderEnabled item.sender) item.plaintext
    paddedLen .same env.draws.bodyJunk
  have hns : call.msgNs = UInt32.ofNat item.number := hitem.msgNum
  have hopen : openBody P party.state.assocData call env.draws.body.aadAlloc
      (bodyChainKey P party.state.msgNumRecv call.msgNs party.state.chainKeyRecv) =
        .ok item.plaintext := by
    rw [hns, hchain, henv.aadAlloc, ← hitem.assocData]
    exact openBody_sentCall hgcm hfits .same env.draws.bodyJunk
  rw [← hns] at hnum ⊢
  have hbody := ratchetDecryptBody_same_ok P idx enabled env.draws.body
    (some (sentHeader senderEnabled item.sender)) party.state call rfl hnum hopen
  simp only [henv.late, RatchetState.carryOut_nil] at hbody
  exact receive_of_body idx enabled hcarries htry henv hbody rfl

/-- An ADVANCE delivery returns the plaintext. Its keys come from the sender's DH key and
header; the new receiving chain has to be the sender's. -/
theorem SealedIn.receive_advance (hgcm : P.GcmCorrect) (hitem : SealedIn P senderEnabled
      party.state.assocData party.state.nextHeaderKeyRecv chain item)
    (hinit : party.state.initialized = true)
    (hcur : openHeader P party.state.assocData (env.message item.wire).clientMsg
      (env.message item.wire).emHeader party.state.headerKeyRecv = none)
    (henv : env.Succeeds gen) {keys : AdvanceKeys K}
    (hkeys : (advanceRatchet P idx enabled env.draws.body
      (some (sentHeader senderEnabled item.sender)) item.sender.dhSelf.publicKey
      party.state).result = .ok keys)
    (hchain : keys.recvChainKey = chain) :
    ∃ recvPq, party.receive P idx enabled env item.wire =
      ({ state := party.state.applyAdvance P keys item.sender.dhSelf.publicKey
          (UInt32.ofNat item.number) (advanceRatchet P idx enabled env.draws.body
            (some (sentHeader senderEnabled item.sender)) item.sender.dhSelf.publicKey
            party.state).pq
         recvPq
         sentInChain := 0 }, some item.plaintext) := by
  obtain ⟨paddedLen, hfits, hcarries⟩ := hitem.carries env
  have htry := hcarries.tryDecrypt_advance hgcm (emittedHeader_length_lt _ _) hinit
    hitem.assocData.symm hcur hitem.headerKey.symm
  let call := sentCall P item.sender (emittedHeader senderEnabled item.sender) item.plaintext
    paddedLen .advance env.draws.bodyJunk
  have hns : call.msgNs = UInt32.ofNat item.number := hitem.msgNum
  have hbodyKey : bodyChainKey P 0 call.msgNs keys.recvChainKey = item.sender.chainKeySend := by
    rw [hns, hchain, hitem.chainKey]
    exact bodyChainKey_skipChain (Nat.zero_le _) hitem.number_lt
  have hopen : openBody P party.state.assocData call env.draws.body.aadAlloc
      (bodyChainKey P 0 call.msgNs keys.recvChainKey) = .ok item.plaintext := by
    rw [hbodyKey, henv.aadAlloc, ← hitem.assocData]
    exact openBody_sentCall hgcm hfits .advance env.draws.bodyJunk
  rw [← hns]
  have hbody := ratchetDecryptBody_advance_ok P idx enabled env.draws.body
    (some (sentHeader senderEnabled item.sender)) party.state call rfl hkeys hopen
  simp only [henv.late, PqKemState.carryOut_nil] at hbody
  exact ⟨_, receive_of_body idx enabled hcarries htry henv hbody rfl⟩

end Chains

/-! ## The relation between the parties -/

/-- The chains of a session and where their receivers stand: what `y` still receives, what `x`
sends since its ADVANCE, what `y` sends; and what went into the root KDF of that ADVANCE. -/
structure LinkData (K : Type) where
  staleChain : K
  staleNext : ℕ
  freshChain : K
  backChain : K
  backNext : ℕ
  dhOut : Bytes 56
  chainKem : Option (Bytes 32)

/-- `x` advanced last; `stale` and `fresh` are what it has in flight from its previous and its
current sending chain, `back` is what `y` has in flight. -/
structure Ahead (P : Primitives K) (gen : KeyGeneration P) (dhCombined : List UInt8)
    (enabledX enabledY : Bool) (x y : Endpoint K) (stale fresh back : List (InFlight K))
    (d : LinkData K) : Prop where
  initX : x.state.initialized = true
  initY : y.state.initialized = true
  assoc : x.state.assocData = y.state.assocData
  header : x.state.headerKeySend = y.state.nextHeaderKeyRecv
  nextHeader : x.state.nextHeaderKeyRecv = y.state.nextHeaderKeySend
  backHeader : x.state.headerKeyRecv = y.state.headerKeySend
  dhX : gen.dhPair x.state.dhSelf
  dhY : gen.dhPair y.state.dhSelf
  dh : P.x448Dh y.state.dhSelf.publicKey x.state.dhSelf.privateKey = some d.dhOut
  root : x.state.rootKey = (P.kdfRoot y.state.rootKey d.dhOut d.chainKem).newRootKey
  chain : d.freshChain = (P.kdfRoot y.state.rootKey d.dhOut d.chainKem).chainKey
  next : x.state.nextHeaderKeySend = (P.kdfRoot y.state.rootKey d.dhOut d.chainKem).nextHeaderKey
  sendsX : Sends P x d.freshChain
  sendsY : Sends P y d.backChain
  receivesX : Receives P x.state d.backChain d.backNext
  receivesY : Receives P y.state d.staleChain d.staleNext
  staleSealed : ∀ item ∈ stale,
    SealedIn P enabledX y.state.assocData y.state.headerKeyRecv d.staleChain item
  staleNumbers : ∃ bound, Numbered d.staleNext bound stale
  freshSealed : ∀ item ∈ fresh,
    SealedIn P enabledX y.state.assocData y.state.nextHeaderKeyRecv d.freshChain item ∧
      item.sender.dhSelf = x.state.dhSelf ∧ item.sender.pq = x.state.pq
  freshNumbers : Numbered 0 x.sentInChain fresh
  backSealed : ∀ item ∈ back,
    SealedIn P enabledY x.state.assocData x.state.headerKeyRecv d.backChain item
  backNumbers : Numbered d.backNext y.sentInChain back
  kemX : KemParty gen enabledX x.state.pq
  kemY : KemParty gen enabledY y.state.pq
  kemLink : KemLink P x.state.pq y.state.pq d.chainKem
  orderX : ∃ rootLevel headerLevel, HeaderOrder P dhCombined x.state rootLevel headerLevel
  orderY : ∃ rootLevel headerLevel, HeaderOrder P dhCombined y.state rootLevel headerLevel

section Steps

variable {P : Primitives K} {gen : KeyGeneration P} {dhCombined : List UInt8} (idx : ℕ)
  {enabledX enabledY : Bool} {x y : Endpoint K} {stale fresh back : List (InFlight K)}
  {d : LinkData K}

/-- What `send` does at a party: nothing, or it puts the next message of its chain in flight. -/
theorem Endpoint.send_cases {enabled : Bool} {party : Endpoint K} {chain : K}
    {plaintext : List UInt8} {paddedMsgLen : ℕ} (hsends : Sends P party chain)
    (hstate : party.state.pq.pqKemState ≤ 2)
    (hfits : SendFits enabled party.state plaintext paddedMsgLen)
    (hlt : party.sentInChain < 2 ^ 32) :
    party.send P idx enabled plaintext paddedMsgLen = (party, []) ∨
    ∃ item, party.send P idx enabled plaintext paddedMsgLen =
        ({ party with state := party.state.sent P, sentInChain := party.sentInChain + 1 },
          [item]) ∧
      SealedIn P enabled party.state.assocData party.state.headerKeySend chain item ∧
      item.sender = party.state ∧ item.number = party.sentInChain := by
  rcases ratchetEncrypt_cases P idx enabled false party.state plaintext paddedMsgLen with
    ⟨-, hout⟩ | ⟨-, hclean, -⟩ | ⟨-, -, paddedLen, header, hpadded, hheader, hout⟩
  · left
    rw [Endpoint.send, hout]
  · cases hclean
  · right
    rw [messageHeader_eq_emittedHeader enabled hstate, Option.some.injEq] at hheader
    subst hheader
    refine ⟨_, by rw [Endpoint.send, hout], ?_, rfl, rfl⟩
    exact
      { wire := ⟨paddedLen, hfits _ hpadded, rfl⟩
        assocData := rfl
        headerKey := rfl
        chainKey := hsends.chainKey
        msgNum := hsends.msgNum
        number_lt := hlt }

/-- The sender's position after a message. -/
theorem Sends.sent {party : Endpoint K} {chain : K} (h : Sends P party chain) :
    Sends P { party with state := party.state.sent P, sentInChain := party.sentInChain + 1 }
      chain where
  chainKey := by
    change P.nextChainKey party.state.chainKeySend = _
    rw [h.chainKey, P.skipChain_succ]
  msgNum := by
    change party.state.msgNumSend + 1 = _
    rw [h.msgNum, ofNat_succ]

/-- The party ahead sends. -/
theorem Ahead.sendX (h : Ahead P gen dhCombined enabledX enabledY x y stale fresh back d)
    {plaintext : List UInt8} {paddedMsgLen : ℕ}
    (hfits : SendFits enabledX x.state plaintext paddedMsgLen) (hlt : x.sentInChain < 2 ^ 32) :
    Ahead P gen dhCombined enabledX enabledY (x.send P idx enabledX plaintext paddedMsgLen).1 y
      stale (fresh ++ (x.send P idx enabledX plaintext paddedMsgLen).2) back d := by
  rcases Endpoint.send_cases idx h.sendsX h.kemX.state_le hfits hlt with
    hsend | ⟨item, hsend, hsealed, hsender, hnumber⟩
  · rw [hsend, List.append_nil]
    exact h
  · rw [hsend]
    have hnew : SealedIn P enabledX y.state.assocData y.state.nextHeaderKeyRecv d.freshChain item :=
      h.assoc ▸ h.header ▸ hsealed
    exact
      { h with
        sendsX := h.sendsX.sent
        receivesX := ⟨h.receivesX.chainKey, h.receivesX.msgNum⟩
        freshSealed := by
          intro other hother
          rcases List.mem_append.mp hother with hold | hitem
          · exact h.freshSealed other hold
          · rw [List.mem_singleton.mp hitem]
            exact ⟨hnew, by rw [hsender]; rfl, by rw [hsender]; rfl⟩
        freshNumbers := by
          have hnumbers := h.freshNumbers
          rw [← hnumber] at hnumbers
          change Numbered 0 (x.sentInChain + 1) (fresh ++ [item])
          rw [← hnumber]
          exact hnumbers.concat
        orderX := by
          obtain ⟨rootLevel, headerLevel, horder⟩ := h.orderX
          exact ⟨rootLevel, headerLevel, horder.root, horder.next, horder.below, horder.current⟩ }

/-- The other party sends. -/
theorem Ahead.sendY (h : Ahead P gen dhCombined enabledX enabledY x y stale fresh back d)
    {plaintext : List UInt8} {paddedMsgLen : ℕ}
    (hfits : SendFits enabledY y.state plaintext paddedMsgLen) (hlt : y.sentInChain < 2 ^ 32) :
    Ahead P gen dhCombined enabledX enabledY x (y.send P idx enabledY plaintext paddedMsgLen).1
      stale fresh (back ++ (y.send P idx enabledY plaintext paddedMsgLen).2) d := by
  rcases Endpoint.send_cases idx h.sendsY h.kemY.state_le hfits hlt with
    hsend | ⟨item, hsend, hsealed, -, hnumber⟩
  · rw [hsend, List.append_nil]
    exact h
  · rw [hsend]
    have hnew : SealedIn P enabledY x.state.assocData x.state.headerKeyRecv d.backChain item :=
      h.assoc ▸ h.backHeader ▸ hsealed
    exact
      { h with
        sendsY := h.sendsY.sent
        receivesY := ⟨h.receivesY.chainKey, h.receivesY.msgNum⟩
        backSealed := by
          intro other hother
          rcases List.mem_append.mp hother with hold | hitem
          · exact h.backSealed other hold
          · rw [List.mem_singleton.mp hitem]
            exact hnew
        backNumbers := by
          have hnumbers := h.backNumbers
          rw [← hnumber] at hnumbers
          change Numbered d.backNext (y.sentInChain + 1) (back ++ [item])
          rw [← hnumber]
          exact hnumbers.concat
        orderY := by
          obtain ⟨rootLevel, headerLevel, horder⟩ := h.orderY
          exact ⟨rootLevel, headerLevel, horder.root, horder.next, horder.below, horder.current⟩ }

/-- The header keys a party tries do not depend on its receiving chain. -/
theorem HeaderOrder.applySame {st : RatchetState K} {msgNs : UInt32} {rootLevel headerLevel : ℕ}
    (h : HeaderOrder P dhCombined st rootLevel headerLevel) :
    HeaderOrder P dhCombined (st.applySame P msgNs) rootLevel headerLevel :=
  ⟨h.root, h.next, h.below, h.current⟩

/-- The channel back loses a message. -/
theorem Ahead.dropBack (h : Ahead P gen dhCombined enabledX enabledY x y stale fresh back d) :
    Ahead P gen dhCombined enabledX enabledY x y stale fresh back.tail d :=
  { h with
    backSealed := fun item hitem => h.backSealed item (List.mem_of_mem_tail hitem)
    backNumbers := h.backNumbers.tail }

/-- The channel from `x` loses a message of the previous chain. -/
theorem Ahead.dropStale (h : Ahead P gen dhCombined enabledX enabledY x y stale fresh back d) :
    Ahead P gen dhCombined enabledX enabledY x y stale.tail fresh back d :=
  { h with
    staleSealed := fun item hitem => h.staleSealed item (List.mem_of_mem_tail hitem)
    staleNumbers := h.staleNumbers.imp fun _ hnumbers => hnumbers.tail }

/-- The channel from `x` loses a message of the current chain. -/
theorem Ahead.dropFresh (h : Ahead P gen dhCombined enabledX enabledY x y stale fresh back d) :
    Ahead P gen dhCombined enabledX enabledY x y stale fresh.tail back d :=
  { h with
    freshSealed := fun item hitem => h.freshSealed item (List.mem_of_mem_tail hitem)
    freshNumbers := h.freshNumbers.tail }

/-- The party ahead receives: SAME. -/
theorem Ahead.receiveX (hgcm : P.GcmCorrect) {item : InFlight K} {rest : List (InFlight K)}
    (h : Ahead P gen dhCombined enabledX enabledY x y stale fresh (item :: rest) d)
    {env : Delivery} (henv : env.Succeeds gen) :
    (x.receive P idx enabledX env item.wire).2 = some item.plaintext ∧
      Ahead P gen dhCombined enabledX enabledY (x.receive P idx enabledX env item.wire).1 y stale
        fresh rest { d with backNext := item.number + 1 } := by
  have hitem := h.backSealed item List.mem_cons_self
  have hreceive := hitem.receive_same idx enabledX hgcm h.initX h.receivesX
    h.backNumbers.1 henv
  have hkey : bodyChainKey P x.state.msgNumRecv (UInt32.ofNat item.number) x.state.chainKeyRecv =
      P.skipChain item.number d.backChain := by
    rw [h.receivesX.msgNum, h.receivesX.chainKey,
      bodyChainKey_skipChain h.backNumbers.1 hitem.number_lt]
  rw [hreceive]
  exact ⟨rfl,
    { h with
      sendsX := ⟨h.sendsX.chainKey, h.sendsX.msgNum⟩
      receivesX := Receives.after (congrArg P.nextChainKey hkey) rfl
      backSealed := fun other hother => h.backSealed other (List.mem_cons_of_mem _ hother)
      backNumbers := h.backNumbers.2
      orderX := h.orderX.imp fun _ horder => horder.imp fun _ horder => horder.applySame }⟩

/-- The other party receives a message of the previous chain: SAME. -/
theorem Ahead.receiveY_stale (hgcm : P.GcmCorrect) {item : InFlight K} {rest : List (InFlight K)}
    (h : Ahead P gen dhCombined enabledX enabledY x y (item :: rest) fresh back d)
    {env : Delivery} (henv : env.Succeeds gen) :
    (y.receive P idx enabledY env item.wire).2 = some item.plaintext ∧
      Ahead P gen dhCombined enabledX enabledY x (y.receive P idx enabledY env item.wire).1 rest
        fresh back { d with staleNext := item.number + 1 } := by
  have hitem := h.staleSealed item List.mem_cons_self
  obtain ⟨bound, hnext, hrest⟩ := h.staleNumbers
  have hreceive := hitem.receive_same idx enabledY hgcm h.initY h.receivesY
    hnext henv
  have hkey : bodyChainKey P y.state.msgNumRecv (UInt32.ofNat item.number) y.state.chainKeyRecv =
      P.skipChain item.number d.staleChain := by
    rw [h.receivesY.msgNum, h.receivesY.chainKey, bodyChainKey_skipChain hnext hitem.number_lt]
  rw [hreceive]
  exact ⟨rfl,
    { h with
      sendsY := ⟨h.sendsY.chainKey, h.sendsY.msgNum⟩
      receivesY := Receives.after (congrArg P.nextChainKey hkey) rfl
      staleSealed := fun other hother => h.staleSealed other (List.mem_cons_of_mem _ hother)
      staleNumbers := ⟨bound, hrest⟩
      orderY := h.orderY.imp fun _ horder => horder.imp fun _ horder => horder.applySame }⟩

/-- The other party receives the first message of the current chain: ADVANCE, after which it is
the party ahead. -/
theorem Ahead.receiveY_fresh (hP : P.CollisionFree) (hgcm : P.GcmCorrect) {item : InFlight K}
    {rest : List (InFlight K)}
    (h : Ahead P gen dhCombined enabledX enabledY x y [] (item :: rest) back d)
    {env : Delivery} (henv : env.Succeeds gen)
    (hseparated : HeaderSeparated P y.state env item) :
    (y.receive P idx enabledY env item.wire).2 = some item.plaintext ∧
      ∃ d', Ahead P gen dhCombined enabledY enabledX (y.receive P idx enabledY env item.wire).1 x
        back [] rest d' := by
  obtain ⟨hitem, hsenderDh, hsenderPq⟩ := h.freshSealed item List.mem_cons_self
  obtain ⟨rootLevel, headerLevel, horder⟩ := h.orderY
  obtain ⟨pair, hpair, hgen⟩ := henv.dhSelf
  -- the header opens under the next key only
  have hcur : openHeader P y.state.assocData (env.message item.wire).clientMsg
      (env.message item.wire).emHeader y.state.headerKeyRecv = none := by
    apply hseparated
    rw [hitem.headerKey]
    exact horder.next_ne_current hP
  -- both halves of the DH ratchet
  have hpub : item.sender.dhSelf.publicKey = x.state.dhSelf.publicKey := by rw [hsenderDh]
  obtain ⟨dhRecv, hrecvX, hrecvY⟩ := gen.dh_agree _ _ h.dhX h.dhY
  have hdhRecv : P.x448Dh item.sender.dhSelf.publicKey y.state.dhSelf.privateKey = some d.dhOut := by
    rw [hpub, hrecvY, ← hrecvX, h.dh]
  obtain ⟨dhSend, hsendY, -⟩ := gen.dh_agree _ _ hgen h.dhX
  have hdhSend : P.x448Dh item.sender.dhSelf.publicKey pair.privateKey = some dhSend := by
    rw [hpub, hsendY]
  -- the KEM step returns what `x` mixed in
  have hhdr : (sentHeader enabledX item.sender).kem =
      emittedKem (pqSendActive enabledX x.state.pq) x.state.pq := by rw [sentHeader, hsenderPq]
  obtain ⟨hkem, hkemY, hlink⟩ := h.kemLink.advance h.kemX h.kemY henv.kem hhdr
  obtain ⟨hkeys, hpq⟩ := advanceRatchet_eq_ok P idx enabledY env.draws.body
    (some (sentHeader enabledX item.sender)) y.state hdhRecv hpair hdhSend
  simp only [henv.late, PqKemState.carryOut_nil] at hkeys hpq
  rw [hkem, ← h.root, ← h.chain, ← h.next] at hkeys
  obtain ⟨recvPq, hreceive⟩ := hitem.receive_advance idx enabledY hgcm
    h.initY hcur henv hkeys rfl
  rw [hreceive, hpq]
  generalize sendKem enabledY (kemStep P enabledY env.draws.body.kem
    (some (sentHeader enabledX item.sender)) y.state.pq).pq = secret at hlink ⊢
  refine ⟨rfl, ⟨d.backChain, d.backNext, (P.kdfRoot x.state.rootKey dhSend secret).chainKey,
    d.freshChain, item.number + 1, dhSend, secret⟩, ?_⟩
  have hbodyKey : bodyChainKey P 0 (UInt32.ofNat item.number) d.freshChain =
      P.skipChain item.number d.freshChain :=
    bodyChainKey_skipChain (Nat.zero_le _) hitem.number_lt
  have hroot : RootAt P dhCombined (rootLevel + 1) x.state.rootKey :=
    h.root ▸ RootAt.root d.dhOut d.chainKem horder.root
  have hnext : HeaderAt P dhCombined (rootLevel + 1) x.state.nextHeaderKeySend :=
    h.next ▸ HeaderAt.root d.dhOut d.chainKem horder.root
  exact
    { initX := h.initY
      initY := h.initX
      assoc := h.assoc.symm
      header := h.nextHeader.symm
      nextHeader := rfl
      backHeader := h.header.symm
      dhX := hgen
      dhY := h.dhX
      dh := hpub ▸ hdhSend
      root := rfl
      chain := rfl
      next := rfl
      sendsX := ⟨rfl, rfl⟩
      sendsY := h.sendsX
      receivesX := Receives.after (congrArg P.nextChainKey hbodyKey) rfl
      receivesY := h.receivesX
      staleSealed := h.backSealed
      staleNumbers := ⟨_, h.backNumbers⟩
      freshSealed := fun other hother => by cases hother
      freshNumbers := Nat.zero_le _
      backSealed := fun other hother =>
        (h.freshSealed other (List.mem_cons_of_mem _ hother)).1
      backNumbers := h.freshNumbers.2
      kemX := hkemY
      kemY := h.kemX
      kemLink := hlink
      orderX := ⟨rootLevel + 2, rootLevel + 1, RootAt.root dhSend secret hroot, hnext,
        Nat.le_succ _, .inr ⟨headerLevel, Nat.lt_succ_of_le horder.below, horder.next⟩⟩
      orderY := h.orderX }

end Steps

end SimpleGo
