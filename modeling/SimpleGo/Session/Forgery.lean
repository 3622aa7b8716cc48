import Mathlib.Data.List.Sort
import SimpleGo.Crypto.Symbolic
import SimpleGo.Ratchet.FailedDecrypt
import SimpleGo.Session.Positions

/-!
# What Alice accepts is what Bob gave, in order

Alice sends on odd levels and receives on even ones, Bob the other way round, so neither takes
a message of its own. The key of an accepted body determines its position; positions of
accepted messages increase, and so do those of the messages Bob gives. The one chain that is
not secret is that of the all-zero key, and Alice takes a message from it if its header opens
under the all-zero key before she has received.
-/

namespace SimpleGo

open Lib

variable {K : Type}

/-! ## The invariant -/

/-- A message at its position. -/
structure Placed (K : Type) where
  level : ℕ
  index : ℕ
  key : K
  plaintext : List UInt8

/-- Positions in the order of the session. -/
def Before (level index level' index' : ℕ) : Prop :=
  level < level' ∨ level = level' ∧ index < index'

/-- Places are in order one after the other. -/
theorem Before.trans {l i l' i' l'' i'' : ℕ} (h : Before l i l' i') (h' : Before l' i' l'' i'') :
    Before l i l'' i'' := by
  unfold Before at *
  omega

/-- Messages at increasing positions, all before a given one. -/
structure Ordered (P : Primitives K) (dhCombined : List UInt8) (level index : ℕ)
    (messages : List (Placed K)) : Prop where
  keys : ∀ a ∈ messages, KeyAt P dhCombined a.level a.index a.key
  increasing : messages.Pairwise fun a b => Before a.level a.index b.level b.index
  below : ∀ a ∈ messages, Before a.level a.index level index

/-- Where an encryption of the log comes from: the adversary, a header, a body of Alice, a body
Bob gave. -/
def Sourced (P : Primitives K) (dhCombined : List UInt8) (given : List (Placed K))
    (e : Encryption K) : Prop :=
  ¬ SessionSecret P dhCombined e.key ∨ NotMessageKey P e.key ∨
  (∃ level index chainKey, level % 2 = 1 ∧ KeyAt P dhCombined level index chainKey ∧
    e.key = (P.kdfChain chainKey).messageKey) ∨
  (∃ a ∈ given, e.key = (P.kdfChain a.key).messageKey ∧
    ∃ paddedLen, PayloadFits a.plaintext paddedLen ∧
      e.plaintext = paddedPayload a.plaintext paddedLen)

/-- What holds of a party at root level `level` that has sent `sent` messages on its chain. -/
structure SendsAt (P : Primitives K) (dhCombined : List UInt8) (st : RatchetState K)
    (level sent : ℕ) : Prop where
  root : RootAt P dhCombined level st.rootKey
  chainKey : KeyAt P dhCombined level sent st.chainKeySend
  header : NotMessageKey P st.headerKeySend
  nextHeader : NotMessageKey P st.nextHeaderKeySend

/-- What holds of Alice's receiving side: before the first ADVANCE she has accepted nothing;
after it she stands at a position below her root level and after everything accepted. -/
structure ReceivesAt (P : Primitives K) (dhCombined : List UInt8) (st : RatchetState K)
    (rootLevel : ℕ) (accepted : List (Placed K)) : Prop where
  next : st.nextHeaderKeyRecv ≠ P.zeroKey
  current : (st.headerKeyRecv = P.zeroKey ∧ accepted = []) ∨
    ∃ level index, (level + 1) % 2 = 0 ∧ level + 1 < rootLevel ∧
      KeyAt P dhCombined (level + 1) index st.chainKeyRecv ∧
      Ordered P dhCombined (level + 1) index accepted

/-- Only the receiving keys decide where a party receives. -/
theorem ReceivesAt.congr {P : Primitives K} {dhCombined : List UInt8} {st st' : RatchetState K}
    {rootLevel : ℕ} {accepted : List (Placed K)} (h : ReceivesAt P dhCombined st rootLevel accepted)
    (hcur : st'.headerKeyRecv = st.headerKeyRecv)
    (hnext : st'.nextHeaderKeyRecv = st.nextHeaderKeyRecv)
    (hchain : st'.chainKeyRecv = st.chainKeyRecv) :
    ReceivesAt P dhCombined st' rootLevel accepted := by
  refine ⟨hnext ▸ h.next, ?_⟩
  rw [hcur, hchain]
  exact h.current

/-- The invariant, for the messages Bob gave and Alice accepted at their positions. -/
structure ForgeryInv (P : Primitives K) (dhCombined : List UInt8) (s : AttackedSession K)
    (levelA sentA levelB sentB : ℕ) (given accepted : List (Placed K)) : Prop where
  oddA : levelA % 2 = 1
  evenB : levelB % 2 = 0
  alice : SendsAt P dhCombined (s.state .alice) levelA sentA
  bob : SendsAt P dhCombined (s.state .bob) levelB sentB
  receives : ReceivesAt P dhCombined (s.state .alice) levelA accepted
  given_eq : given.map Placed.plaintext = s.given .bob
  accepted_eq : accepted.map Placed.plaintext = s.accepted .alice
  ordered : Ordered P dhCombined levelB sentB given
  subset : ∀ a ∈ accepted, a ∈ given
  log : ∀ e ∈ s.log, Sourced P dhCombined given e

section Lists

variable {P : Primitives K} {dhCombined : List UInt8} {messages given : List (Placed K)}

/-- No message is in order. -/
theorem ordered_nil (level index : ℕ) : Ordered P dhCombined level index [] where
  keys _ h := by cases h
  increasing := .nil
  below _ h := by cases h

/-- A later bound. -/
theorem Ordered.mono {level index level' index' : ℕ}
    (h : Ordered P dhCombined level index messages) (hbefore : Before level index level' index') :
    Ordered P dhCombined level' index' messages :=
  { h with below := fun a ha => (h.below a ha).trans hbefore }

/-- One more message, at the bound or after it. -/
theorem Ordered.concat {level index : ℕ} (h : Ordered P dhCombined level index messages)
    {a : Placed K} (hkey : KeyAt P dhCombined a.level a.index a.key)
    (hafter : level < a.level ∨ level = a.level ∧ index ≤ a.index) :
    Ordered P dhCombined a.level (a.index + 1) (messages ++ [a]) := by
  have hbelow : ∀ b ∈ messages, Before b.level b.index a.level a.index := by
    intro b hb
    have hb := h.below b hb
    unfold Before at *
    omega
  refine ⟨?_, ?_, ?_⟩
  · intro b hb
    rcases List.mem_append.mp hb with hold | hnew
    · exact h.keys b hold
    · rw [List.mem_singleton.mp hnew]
      exact hkey
  · refine List.pairwise_append.mpr ⟨h.increasing, List.pairwise_singleton _ _, ?_⟩
    intro b hb c hc
    rw [List.mem_singleton.mp hc]
    exact hbelow b hb
  · intro b hb
    rcases List.mem_append.mp hb with hold | hnew
    · exact (hbelow b hold).trans (.inr ⟨rfl, Nat.lt_succ_self _⟩)
    · rw [List.mem_singleton.mp hnew]
      exact .inr ⟨rfl, Nat.lt_succ_self _⟩

/-- Ordered messages of which each is among other ordered messages are a sublist of them. -/
theorem Ordered.sublist {accepted : List (Placed K)} {level index level' index' : ℕ}
    (h : Ordered P dhCombined level index accepted)
    (h' : Ordered P dhCombined level' index' given) (hsub : ∀ a ∈ accepted, a ∈ given) :
    accepted.Sublist given := by
  have hanti : Std.Antisymm fun a b : Placed K => Before a.level a.index b.level b.index := by
    refine ⟨fun a b hab hba => ?_⟩
    unfold Before at hab hba
    omega
  have hnodup : accepted.Nodup := by
    refine h.increasing.imp fun {a b} hab => ?_
    rintro rfl
    unfold Before at hab
    omega
  exact List.sublist_of_subperm_of_pairwise (List.subperm_of_subset hnodup hsub) h.increasing
    h'.increasing

/-- With more given, an encryption stays sourced. -/
theorem Sourced.mono {given' : List (Placed K)} {e : Encryption K}
    (h : Sourced P dhCombined given e) (hsub : ∀ a ∈ given, a ∈ given') :
    Sourced P dhCombined given' e := by
  rcases h with h | h | h | ⟨a, ha, h⟩
  · exact .inl h
  · exact .inr (.inl h)
  · exact .inr (.inr (.inl h))
  · exact .inr (.inr (.inr ⟨a, hsub a ha, h⟩))

/-- A body that opens from a chain key of an even level above 0 is a message Bob gave, at that
position. -/
theorem given_of_opens (hP : P.CollisionFree) {log : List (Encryption K)}
    (hlog : ∀ e ∈ log, Sourced P dhCombined given e)
    (hgiven : ∀ a ∈ given, KeyAt P dhCombined a.level a.index a.key) {assocData : Bytes 112}
    {call : BodyCall} {aadAlloc : Bool} {chainKey : K} {plaintext : List UInt8}
    (hideal : IdealFor P log (bodyQuery P assocData call chainKey)) {level index : ℕ}
    (hkey : KeyAt P dhCombined (level + 1) index chainKey) (heven : (level + 1) % 2 = 0)
    (hopen : openBody P assocData call aadAlloc chainKey = .ok plaintext) :
    ∃ a ∈ given, a.level = level + 1 ∧ a.index = index ∧ a.plaintext = plaintext := by
  obtain ⟨padded, hdecrypt, hunpad⟩ := openBody_ok hopen
  rcases hlog _ (hideal padded hdecrypt) with hown | hheader | ⟨level', index', key', hodd, hat, heq⟩ |
    ⟨a, ha, heq, paddedLen, hfits, hpadded⟩
  · exact absurd hkey.secret hown
  · exact absurd rfl (hheader chainKey)
  · obtain ⟨hlevel, -, -⟩ := hkey.unique hP hat heq
    omega
  · obtain ⟨hlevel, hindex, -⟩ := hkey.unique hP (hgiven a ha) heq
    refine ⟨a, ha, hlevel.symm, hindex.symm, ?_⟩
    have hplain : padded = paddedPayload a.plaintext paddedLen := hpadded
    rw [hplain, unPad_paddedPayload call.junk hfits] at hunpad
    exact Option.some.inj hunpad

end Lists

section Parties

variable {P : Primitives K} {dhCombined : List UInt8} (idx : ℕ) {st : RatchetState K}
  {level sent : ℕ}

/-- What the encryptions of a call are. -/
theorem mem_encryptionsOf {enabled : Bool} {plaintext : List UInt8} {paddedMsgLen : ℕ}
    {e : Encryption K} (h : e ∈ encryptionsOf P enabled st plaintext paddedMsgLen) :
    encryptAdmitted enabled st paddedMsgLen = true ∧
      (e.key = st.headerKeySend ∨ (e.key = (P.kdfChain st.chainKeySend).messageKey ∧
        ∃ paddedLen, effectivePaddedLen (pqSendActive enabled st.pq) paddedMsgLen = some paddedLen ∧
          e.plaintext = paddedPayload plaintext paddedLen)) := by
  cases hinit : st.initialized with
  | false => simp [encryptionsOf, hinit] at h
  | true =>
    obtain ⟨header, hheader⟩ := messageHeader_isSome enabled st.dhSelf.publicKey st.pq
      st.prevChainLen st.msgNumSend
    simp only [encryptionsOf, hinit, Bool.not_true, Bool.false_eq_true, if_false, hheader] at h
    cases hlen : effectivePaddedLen (pqSendActive enabled st.pq) paddedMsgLen with
    | none => simp [hlen] at h
    | some paddedLen =>
      simp only [hlen, List.mem_cons, List.not_mem_nil, or_false] at h
      refine ⟨by simp [encryptAdmitted, hinit, hlen], ?_⟩
      rcases h with rfl | rfl
      · exact .inl rfl
      · exact .inr ⟨rfl, paddedLen, rfl, rfl⟩

/-- What a call of `ratchet_encrypt` does to a party: nothing, or a chain step that leaves its
keys otherwise as they were. -/
theorem SendsAt.encrypt (h : SendsAt P dhCombined st level sent) (enabled cleanup : Bool)
    (plaintext : List UInt8) (paddedMsgLen : ℕ) :
    let st' := (ratchetEncrypt P idx enabled cleanup st plaintext paddedMsgLen).state
    (encryptAdmitted enabled st paddedMsgLen = false ∧ st' = st) ∨
    (encryptAdmitted enabled st paddedMsgLen = true ∧ SendsAt P dhCombined st' level (sent + 1) ∧
      st'.headerKeyRecv = st.headerKeyRecv ∧ st'.nextHeaderKeyRecv = st.nextHeaderKeyRecv ∧
      st'.chainKeyRecv = st.chainKeyRecv) := by
  intro st'
  rcases ratchetEncrypt_cases P idx enabled cleanup st plaintext paddedMsgLen with
    ⟨hadm, hout⟩ | ⟨hadm, -, hout⟩ | ⟨hadm, -, _, _, -, -, hout⟩
  · exact .inl ⟨hadm, congrArg EncryptOut.state hout⟩
  · have hst : st' = st.chainStep P := congrArg EncryptOut.state hout
    rw [hst]
    exact .inr ⟨hadm, ⟨h.root, h.chainKey.next, h.header, h.nextHeader⟩, rfl, rfl, rfl⟩
  · have hst : st' = st.sent P := congrArg EncryptOut.state hout
    rw [hst]
    exact .inr ⟨hadm, ⟨h.root, h.chainKey.next, h.header, h.nextHeader⟩, rfl, rfl, rfl⟩

/-- The sending side after an ADVANCE: two root levels higher, on a new chain. -/
theorem SendsAt.advance (hP : P.CollisionFree) (h : SendsAt P dhCombined st level sent)
    {keys : AdvanceKeys K} {peerNewPub : Bytes 56} {msgNs : UInt32} {pq : PqKemState}
    {dhRecv dhSend : Bytes 56} {kemRecv kemSend : Option (Bytes 32)}
    (hroot : keys.newRootKey2 =
      (P.kdfRoot (P.kdfRoot st.rootKey dhRecv kemRecv).newRootKey dhSend kemSend).newRootKey)
    (hchain : keys.sendChainKey =
      (P.kdfRoot (P.kdfRoot st.rootKey dhRecv kemRecv).newRootKey dhSend kemSend).chainKey)
    (hnext : keys.newNhkSend =
      (P.kdfRoot (P.kdfRoot st.rootKey dhRecv kemRecv).newRootKey dhSend kemSend).nextHeaderKey) :
    SendsAt P dhCombined (st.applyAdvance P keys peerNewPub msgNs pq) (level + 2) 0 := by
  have hmid := RootAt.root dhRecv kemRecv h.root
  have hstart : ChainAt P dhCombined (level + 1) keys.sendChainKey :=
    ⟨_, dhSend, kemSend, hmid, hchain⟩
  exact
    { root := by
        change RootAt P dhCombined (level + 2) keys.newRootKey2
        rw [hroot]
        exact .root dhSend kemSend hmid
      chainKey := hstart.keyAt
      header := h.nextHeader
      nextHeader := by
        change NotMessageKey P keys.newNhkSend
        rw [hnext]
        exact notMessageKey_root hP _ _ _ }

/-- What any delivery does to the sending side of a party. -/
theorem SendsAt.deliver (hP : P.CollisionFree) (h : SendsAt P dhCombined st level sent)
    (enabled : Bool) (draws : ReceiveDraws) (recvPq : Option ParsedMsgHeader) (m : ClientMessage) :
    let st' := (ratchetDecryptMessage P idx enabled draws recvPq st m).state
    SendsAt P dhCombined st' level sent ∨ SendsAt P dhCombined st' (level + 2) 0 := by
  intro st'
  rcases ratchetDecryptMessage_moves with ⟨-, pq, hst⟩ | ⟨_, _, _, -, -, -, -, _, hst⟩ |
    ⟨_, _, _, _, _, _, _, _, -, -, -, -, -, hroot, hchain, hnext, hst⟩
  · have hst' : st' = { st with pq } := hst
    rw [hst']
    exact .inl ⟨h.root, h.chainKey, h.header, h.nextHeader⟩
  · have hst' : st' = _ := hst
    rw [hst']
    exact .inl ⟨h.root, h.chainKey, h.header, h.nextHeader⟩
  · have hst' : st' = _ := hst
    rw [hst']
    exact .inr (h.advance hP hroot hchain hnext)

end Parties

section Steps

variable {P : Primitives K} {dhCombined : List UInt8} (idx : ℕ) {s : AttackedSession K}
  {levelA sentA levelB sentB : ℕ} {given accepted : List (Placed K)}

/-- What a delivery does to Alice: she accepts nothing and keeps her receiving keys, or she
accepts the next of Bob's messages. -/
theorem ReceivesAt.deliver (hP : P.CollisionFree) {st : RatchetState K}
    (hsends : SendsAt P dhCombined st levelA sentA) (hodd : levelA % 2 = 1)
    (h : ReceivesAt P dhCombined st levelA accepted) {log : List (Encryption K)}
    (hlog : ∀ e ∈ log, Sourced P dhCombined given e)
    (hgiven : ∀ a ∈ given, KeyAt P dhCombined a.level a.index a.key) {enabled : Bool}
    {draws : ReceiveDraws} (recvPq : Option ParsedMsgHeader) {m : ClientMessage}
    (hideal : IdealDelivery P idx enabled draws log st m)
    (hzero : st.headerKeyRecv = P.zeroKey →
      openHeader P st.assocData m.clientMsg m.emHeader P.zeroKey = none) :
    let out := ratchetDecryptMessage P idx enabled draws recvPq st m
    (out.body = none ∧ SendsAt P dhCombined out.state levelA sentA ∧
      ReceivesAt P dhCombined out.state levelA accepted) ∨
    ∃ a ∈ given, out.body = some a.plaintext ∧ ∃ level sent, level % 2 = 1 ∧
      SendsAt P dhCombined out.state level sent ∧
      ReceivesAt P dhCombined out.state level (accepted ++ [a]) := by
  intro out
  rcases ratchetDecryptMessage_moves with ⟨hbody, pq, hst⟩ |
    ⟨call, opened, plaintext, hbody, hheader, hquery, hopen, pq, hst⟩ |
    ⟨call, keys, plaintext, pq, dhRecv, kemRecv, dhSend, kemSend, hbody, hquery, hopen, hchain,
      hnhk, hrootKey, hsendChain, hsendNext, hst⟩
  · have hst' : out.state = { st with pq } := hst
    rw [hst']
    exact .inl ⟨hbody, ⟨hsends.root, hsends.chainKey, hsends.header, hsends.nextHeader⟩,
      ⟨h.next, h.current⟩⟩
  · -- SAME: the current header key is not the zero key, so a chain has been received on
    rcases h.current with ⟨hkey, -⟩ | ⟨level, index, heven, hlt, hkey, hordered⟩
    · rw [hkey, hzero hkey] at hheader
      cases hheader
    · have htrial := hkey.skip (call.msgNs.toNat - st.msgNumRecv.toNat)
      obtain ⟨a, ha, hlevel, hindex, rfl⟩ :=
        given_of_opens hP hlog hgiven (hideal.body _ hquery) htrial heven hopen
      have hafter := hordered.concat (hgiven a ha) (.inr ⟨hlevel.symm, by omega⟩)
      rw [hlevel, hindex] at hafter
      have hst' : out.state = { st.applySame P call.msgNs with pq } := hst
      rw [hst']
      exact .inr ⟨a, ha, hbody, levelA, sentA, hodd,
        ⟨hsends.root, hsends.chainKey, hsends.header, hsends.nextHeader⟩,
        ⟨h.next, .inr ⟨level, _, heven, hlt, htrial.next, hafter⟩⟩⟩
  · -- ADVANCE: a chain of the next level
    have hstart : ChainAt P dhCombined levelA keys.recvChainKey :=
      ⟨_, dhRecv, kemRecv, hsends.root, hchain⟩
    have htrial := hstart.keyAt.skip (call.msgNs.toNat - (0 : UInt32).toNat)
    have heven : (levelA + 1) % 2 = 0 := by omega
    obtain ⟨a, ha, hlevel, hindex, rfl⟩ :=
      given_of_opens hP hlog hgiven (hideal.body _ hquery) htrial heven hopen
    have hafter : Ordered P dhCombined a.level (a.index + 1) (accepted ++ [a]) := by
      rcases h.current with ⟨-, rfl⟩ | ⟨level, index, -, hlt, -, hordered⟩
      · exact (ordered_nil 0 0).concat (hgiven a ha) (.inl (by omega))
      · exact hordered.concat (hgiven a ha) (.inl (by omega))
    rw [hlevel, hindex] at hafter
    have hst' : out.state = st.applyAdvance P keys call.peerNewPub call.msgNs pq := hst
    rw [hst']
    refine .inr ⟨a, ha, hbody, levelA + 2, 0, by omega,
      hsends.advance hP hrootKey hsendChain hsendNext,
      ⟨?_, .inr ⟨levelA, _, heven, by omega, htrial.next, hafter⟩⟩⟩
    change keys.newNhkRecv ≠ P.zeroKey
    rw [hnhk]
    exact hP.ne_zero _ _

/-- The invariant of a state, for some positions. -/
def Unforged (P : Primitives K) (dhCombined : List UInt8) (s : AttackedSession K) : Prop :=
  ∃ levelA sentA levelB sentB given accepted,
    ForgeryInv P dhCombined s levelA sentA levelB sentB given accepted

/-- The encryptions of Alice have a known source. -/
theorem sourced_alice {st : RatchetState K} {level sent : ℕ} (hodd : level % 2 = 1)
    (h : SendsAt P dhCombined st level sent) {enabled : Bool} {plaintext : List UInt8}
    {paddedMsgLen : ℕ} {e : Encryption K}
    (he : e ∈ encryptionsOf P enabled st plaintext paddedMsgLen) :
    Sourced P dhCombined given e := by
  rcases (mem_encryptionsOf he).2 with hkey | ⟨hkey, -⟩
  · exact .inr (.inl (hkey ▸ h.header))
  · exact .inr (.inr (.inl ⟨level, sent, _, hodd, h.chainKey, hkey⟩))

/-- Alice encrypts. -/
theorem ForgeryInv.encryptAlice
    (h : ForgeryInv P dhCombined s levelA sentA levelB sentB given accepted)
    (enabled cleanup : Bool) (plaintext : List UInt8) (paddedMsgLen : ℕ) :
    Unforged P dhCombined
      (s.step P idx (.encrypt .alice enabled cleanup plaintext paddedMsgLen)) := by
  have hlog : ∀ e ∈ s.log ++ encryptionsOf P enabled (s.state .alice) plaintext paddedMsgLen,
      Sourced P dhCombined given e := by
    intro e he
    rcases List.mem_append.mp he with hold | hnew
    · exact h.log e hold
    · exact sourced_alice h.oddA h.alice hnew
  have hparty : ∃ sent, SendsAt P dhCombined (ratchetEncrypt P idx enabled cleanup
        (s.state .alice) plaintext paddedMsgLen).state levelA sent ∧
      ReceivesAt P dhCombined (ratchetEncrypt P idx enabled cleanup (s.state .alice) plaintext
        paddedMsgLen).state levelA accepted := by
    rcases h.alice.encrypt idx enabled cleanup plaintext paddedMsgLen with
      ⟨-, hst⟩ | ⟨-, hsends, hcur, hnext, hchain⟩
    · rw [hst]
      exact ⟨sentA, h.alice, h.receives⟩
    · exact ⟨sentA + 1, hsends, h.receives.congr hcur hnext hchain⟩
  obtain ⟨sent, hsends, hreceives⟩ := hparty
  refine ⟨levelA, sent, levelB, sentB, given, accepted, ?_⟩
  exact
    { h with
      alice := by simpa only [AttackedSession.step, Function.update_self] using hsends
      bob := by
        simpa only [AttackedSession.step, ne_eq, reduceCtorEq, not_false_eq_true,
          Function.update_of_ne] using h.bob
      receives := by simpa only [AttackedSession.step, Function.update_self] using hreceives
      given_eq := by
        simpa only [AttackedSession.step, ne_eq, reduceCtorEq, not_false_eq_true,
          Function.update_of_ne] using h.given_eq
      log := hlog }

/-- Bob encrypts: he gives a message at his next position. -/
theorem ForgeryInv.encryptBob
    (h : ForgeryInv P dhCombined s levelA sentA levelB sentB given accepted)
    (enabled cleanup : Bool) {plaintext : List UInt8} {paddedMsgLen : ℕ}
    (hfits : SendFits enabled (s.state .bob) plaintext paddedMsgLen) :
    Unforged P dhCombined
      (s.step P idx (.encrypt .bob enabled cleanup plaintext paddedMsgLen)) := by
  have halice (st : RatchetState K) :
      (Function.update s.state .bob st) .alice = s.state .alice :=
    Function.update_of_ne (by decide) _ _
  rcases h.bob.encrypt idx enabled cleanup plaintext paddedMsgLen with
    ⟨hadm, hst⟩ | ⟨hadm, hsends, -, -, -⟩
  · -- a refused call changes nothing
    have hnone : encryptionsOf P enabled (s.state .bob) plaintext paddedMsgLen = [] := by
      apply List.eq_nil_iff_forall_not_mem.mpr
      intro e he
      rw [(mem_encryptionsOf he).1] at hadm
      cases hadm
    have hstep : s.step P idx (.encrypt .bob enabled cleanup plaintext paddedMsgLen) = s := by
      simp only [AttackedSession.step, hst, hadm, hnone, Bool.false_eq_true, if_false,
        List.append_nil, Function.update_eq_self]
    rw [hstep]
    exact ⟨_, _, _, _, _, _, h⟩
  · let a : Placed K := ⟨levelB, sentB, (s.state .bob).chainKeySend, plaintext⟩
    have hordered : Ordered P dhCombined a.level (a.index + 1) (given ++ [a]) :=
      h.ordered.concat h.bob.chainKey (.inr ⟨rfl, Nat.le_refl _⟩)
    have hsub : ∀ b ∈ given, b ∈ given ++ [a] := fun b hb => List.mem_append_left _ hb
    refine ⟨levelA, sentA, levelB, sentB + 1, given ++ [a], accepted, ?_⟩
    exact
      { h with
        alice := by simpa only [AttackedSession.step, halice] using h.alice
        bob := by simpa only [AttackedSession.step, Function.update_self] using hsends
        receives := by simpa only [AttackedSession.step, halice] using h.receives
        given_eq := by
          simp only [AttackedSession.step, Function.update_self, hadm, if_true, List.map_append,
            h.given_eq]
          rfl
        ordered := hordered
        subset := fun b hb => hsub b (h.subset b hb)
        log := by
          intro e he
          rcases List.mem_append.mp he with hold | hnew
          · exact (h.log e hold).mono hsub
          · rcases (mem_encryptionsOf hnew).2 with hkey | ⟨hkey, paddedLen, hlen, hplain⟩
            · exact .inr (.inl (hkey ▸ h.bob.header))
            · exact .inr (.inr (.inr ⟨a, List.mem_append_right _ (List.mem_singleton_self a),
                hkey, paddedLen, hfits paddedLen hlen, hplain⟩)) }

/-- The adversary encrypts. -/
theorem ForgeryInv.encryptOwn
    (h : ForgeryInv P dhCombined s levelA sentA levelB sentB given accepted) {key : K}
    (hkey : ¬ SessionSecret P dhCombined key) (iv : Bytes 16) (aad plaintext : List UInt8) :
    Unforged P dhCombined (s.step P idx (.encryptOwn key iv aad plaintext)) := by
  refine ⟨levelA, sentA, levelB, sentB, given, accepted, { h with log := ?_ }⟩
  intro e he
  rcases List.mem_append.mp he with hold | hnew
  · exact h.log e hold
  · rw [List.mem_singleton.mp hnew]
    exact .inl hkey

/-- Anything reaches Bob. -/
theorem ForgeryInv.deliverBob (hP : P.CollisionFree)
    (h : ForgeryInv P dhCombined s levelA sentA levelB sentB given accepted) (enabled : Bool)
    (draws : ReceiveDraws) (m : ClientMessage) :
    Unforged P dhCombined (s.step P idx (.deliver .bob enabled draws m)) := by
  have halice (st : RatchetState K) :
      (Function.update s.state .bob st) .alice = s.state .alice :=
    Function.update_of_ne (by decide) _ _
  have haccepted (l : List (List UInt8)) :
      (Function.update s.accepted .bob l) .alice = s.accepted .alice :=
    Function.update_of_ne (by decide) _ _
  rcases h.bob.deliver idx hP enabled draws (s.recvPq .bob) m with hsame | hadvance
  · refine ⟨levelA, sentA, levelB, sentB, given, accepted, ?_⟩
    exact
      { h with
        alice := by simpa only [AttackedSession.step, halice] using h.alice
        bob := by simpa only [AttackedSession.step, Function.update_self] using hsame
        receives := by simpa only [AttackedSession.step, halice] using h.receives
        accepted_eq := by simpa only [AttackedSession.step, haccepted] using h.accepted_eq }
  · refine ⟨levelA, sentA, levelB + 2, 0, given, accepted, ?_⟩
    exact
      { h with
        evenB := by
          have heven := h.evenB
          omega
        alice := by simpa only [AttackedSession.step, halice] using h.alice
        bob := by simpa only [AttackedSession.step, Function.update_self] using hadvance
        receives := by simpa only [AttackedSession.step, halice] using h.receives
        accepted_eq := by simpa only [AttackedSession.step, haccepted] using h.accepted_eq
        ordered := h.ordered.mono (.inl (by omega)) }

/-- Anything reaches Alice. -/
theorem ForgeryInv.deliverAlice (hP : P.CollisionFree)
    (h : ForgeryInv P dhCombined s levelA sentA levelB sentB given accepted) {enabled : Bool}
    {draws : ReceiveDraws} {m : ClientMessage}
    (hideal : IdealDelivery P idx enabled draws s.log (s.state .alice) m)
    (hzero : (s.state .alice).headerKeyRecv = P.zeroKey →
      openHeader P (s.state .alice).assocData m.clientMsg m.emHeader P.zeroKey = none) :
    Unforged P dhCombined (s.step P idx (.deliver .alice enabled draws m)) := by
  have hbob (st : RatchetState K) : (Function.update s.state .alice st) .bob = s.state .bob :=
    Function.update_of_ne (by decide) _ _
  have hdeliver := h.receives.deliver idx hP h.alice h.oddA h.log h.ordered.keys
    (s.recvPq .alice) hideal hzero
  rcases hdeliver with ⟨hbody, hsends, hreceives⟩ |
    ⟨a, ha, hbody, level, sent, hodd, hsends, hreceives⟩
  · refine ⟨levelA, sentA, levelB, sentB, given, accepted, ?_⟩
    exact
      { h with
        alice := by simpa only [AttackedSession.step, Function.update_self] using hsends
        bob := by simpa only [AttackedSession.step, hbob] using h.bob
        receives := by simpa only [AttackedSession.step, Function.update_self] using hreceives
        accepted_eq := by
          simp only [AttackedSession.step, Function.update_self, hbody, Option.toList_none,
            List.append_nil, h.accepted_eq] }
  · refine ⟨level, sent, levelB, sentB, given, accepted ++ [a], ?_⟩
    exact
      { h with
        oddA := hodd
        alice := by simpa only [AttackedSession.step, Function.update_self] using hsends
        bob := by simpa only [AttackedSession.step, hbob] using h.bob
        receives := by simpa only [AttackedSession.step, Function.update_self] using hreceives
        accepted_eq := by
          simp only [AttackedSession.step, Function.update_self, hbody, Option.toList_some,
            List.map_append, List.map_cons, List.map_nil, h.accepted_eq]
        subset := by
          intro b hb
          rcases List.mem_append.mp hb with hold | hnew
          · exact h.subset b hold
          · rw [List.mem_singleton.mp hnew]
            exact ha }

/-- Every granted step in which Alice takes nothing under the zero key keeps the invariant. -/
theorem Unforged.step (hP : P.CollisionFree) (s : AttackedSession K) (a : AttackAction K)
    (h : Unforged P dhCombined s) (ha : a.Granted P idx dhCombined s ∧ a.NotZeroKeyed P s) :
    Unforged P dhCombined (s.step P idx a) := by
  obtain ⟨levelA, sentA, levelB, sentB, given, accepted, h⟩ := h
  cases a with
  | encrypt side enabled cleanup plaintext paddedMsgLen =>
    cases side with
    | alice => exact h.encryptAlice idx enabled cleanup plaintext paddedMsgLen
    | bob => exact h.encryptBob idx enabled cleanup ha.1
  | encryptOwn key iv aad plaintext => exact h.encryptOwn idx ha.1 iv aad plaintext
  | deliver side enabled draws m =>
    cases side with
    | alice => exact h.deliverAlice idx hP ha.1 ha.2
    | bob => exact h.deliverBob idx hP enabled draws m

/-- What Alice accepted is a subsequence of what Bob gave. -/
theorem Unforged.sublist (h : Unforged P dhCombined s) :
    (s.accepted .alice).Sublist (s.given .bob) := by
  obtain ⟨levelA, sentA, levelB, sentB, given, accepted, h⟩ := h
  rw [← h.accepted_eq, ← h.given_eq]
  rcases h.receives.current with ⟨-, rfl⟩ | ⟨level, index, -, -, -, hordered⟩
  · exact List.nil_sublist _
  · exact (hordered.sublist h.ordered h.subset).map _

end Steps

/-- The invariant after the handshake. -/
theorem Unforged.start {P : Primitives K} (hP : P.CollisionFree) {peerKey1 peerKey2 : Bytes 56}
    {ourKey1 ourKey2 dhSelfB : X448KeyPair} {a : RatchetState K} {dhCombined : List UInt8}
    (hx3dh : x3dhSecrets P peerKey1 peerKey2 ourKey1 ourKey2 = some dhCombined)
    (ha : ratchetSetup P peerKey1 peerKey2 ourKey1 ourKey2 = some a) :
    Unforged P dhCombined
      (.start a (mirroredState P (P.kdf (.x3dh dhCombined) 2) dhSelfB a)) := by
  obtain ⟨dhCombined', dhOut, hsecrets, -, rfl⟩ := ratchetSetup_eq_some ha
  obtain rfl : dhCombined = dhCombined' := Option.some.inj (hx3dh.symm.trans hsecrets)
  have hroot : RootAt P dhCombined 0 (P.kdf (.x3dh dhCombined) 2) := .x3dh
  have hchain : ChainAt P dhCombined 0
      (P.kdfRoot (P.kdf (.x3dh dhCombined) 2) dhOut none).chainKey := ⟨_, dhOut, none, hroot, rfl⟩
  refine ⟨1, 0, 0, 0, [], [], ?_⟩
  exact
    { oddA := rfl
      evenB := rfl
      alice := ⟨.root dhOut none hroot, hchain.keyAt, notMessageKey_x3dh hP 0,
        notMessageKey_root hP _ _ _⟩
      bob := ⟨hroot, ⟨P.zeroKey, .zero, rfl⟩, notMessageKey_zero hP, notMessageKey_x3dh hP 1⟩
      receives := ⟨hP.ne_zero _ _, .inl ⟨rfl, rfl⟩⟩
      given_eq := rfl
      accepted_eq := rfl
      ordered := ordered_nil 0 0
      subset := fun _ h => h
      log := fun _ h => by cases h }

/-- Whatever the network does, what Alice accepts is a subsequence of what Bob gave to
`ratchet_encrypt`, in every run in which no header that reaches her before her first ADVANCE
opens under the all-zero key. -/
theorem accepted_sublist_given (P : Primitives K) (hP : P.CollisionFree) (idx : ℕ)
    (peerKey1 peerKey2 : Bytes 56) (ourKey1 ourKey2 dhSelfB : X448KeyPair) (a : RatchetState K)
    (dhCombined : List UInt8)
    (hx3dh : x3dhSecrets P peerKey1 peerKey2 ourKey1 ourKey2 = some dhCombined)
    (ha : ratchetSetup P peerKey1 peerKey2 ourKey1 ourKey2 = some a)
    (actions : List (AttackAction K))
    (hrun : StepsMeet (AttackedSession.step P idx)
      (fun s act => act.Granted P idx dhCombined s ∧ act.NotZeroKeyed P s)
      (.start a (mirroredState P (P.kdf (.x3dh dhCombined) 2) dhSelfB a)) actions) :
    ((runFrom (AttackedSession.step P idx)
        (.start a (mirroredState P (P.kdf (.x3dh dhCombined) 2) dhSelfB a)) actions).accepted
          .alice).Sublist
      ((runFrom (AttackedSession.step P idx)
        (.start a (mirroredState P (P.kdf (.x3dh dhCombined) 2) dhSelfB a)) actions).given .bob) :=
  (hrun.invariant (Unforged.step idx hP) (Unforged.start hP hx3dh ha)).sublist

/-! ## A forgery under the zero key -/

/-- The X3DH secret of the sample handshake. -/
def sampleSecrets : List UInt8 :=
  (x3dhSecrets symbolic (symbolicPair 1).publicKey (symbolicPair 2).publicKey (symbolicPair 3)
    (symbolicPair 4)).getD []

/-- The sample handshake on an adversarial network. -/
def sampleAttacked : AttackedSession SymKey :=
  .start sampleSession (mirroredState symbolic (symbolic.kdf (.x3dh sampleSecrets) 2)
    (symbolicPair 2) sampleSession)

/-- What the adversary pretends to be: a party whose keys are all zero. -/
def forgedSender : RatchetState SymKey :=
  { RatchetState.zero symbolic with
    assocData := sampleSession.assocData
    initialized := true }

/-- The buffers of a delivery in which everything succeeds. -/
def sampleReceiveDraws : ReceiveDraws where
  headerAlloc := true
  headerJunk := fun _ => 0
  bodyAlloc := true
  bodyJunk := fun _ => 0
  body := sampleDraws

/-- The adversary encrypts a header under the zero key and a body under the first message key
of the chain of the zero key, and delivers them. -/
def forgedRun : List (AttackAction SymKey) :=
  let keys := symbolic.kdfChain symbolic.zeroKey
  let header := emittedHeader false forgedSender
  [.encryptOwn symbolic.zeroKey keys.headerIv forgedSender.assocData.toList header,
    .encryptOwn keys.messageKey keys.msgIv
      (forgedSender.assocData.toList ++ emHeader symbolic forgedSender header)
      (paddedPayload [42] 16),
    .deliver .alice false sampleReceiveDraws
      (clientMessageOf [] (encRatchetMessage symbolic forgedSender header [42] 16) fun _ => 0)]

/-- Neither key is a secret of the session. -/
theorem forged_keys_not_secret :
    ¬ SessionSecret symbolic sampleSecrets symbolic.zeroKey ∧
      ¬ SessionSecret symbolic sampleSecrets
        (symbolic.kdfChain symbolic.zeroKey).messageKey := by
  have hzero : ¬ SessionSecret symbolic sampleSecrets symbolic.zeroKey := by
    intro h
    generalize hkey : symbolic.zeroKey = key at h
    cases h <;> exact absurd hkey.symm (symbolic_collisionFree.ne_zero _ _)
  refine ⟨hzero, fun h => ?_⟩
  change SessionSecret symbolic sampleSecrets (symbolic.kdf (.chain symbolic.zeroKey) 1) at h
  generalize hkey : symbolic.kdf (.chain symbolic.zeroKey) 1 = key at h
  cases h with
  | x3dh block => cases (symbolic_collisionFree.inj _ _ _ _ hkey).1
  | root dhOut kemSecret block _ => cases (symbolic_collisionFree.inj _ _ _ _ hkey).1
  | chain block hchain =>
    obtain rfl := KdfCall.chain.inj (symbolic_collisionFree.inj _ _ _ _ hkey).1
    exact hzero hchain

set_option maxRecDepth 20000 in
/-- AES-GCM is ideal in that run, and Alice accepts a plaintext although Bob gave none. -/
theorem forged_accepted :
    StepsMeet (AttackedSession.step symbolic 0)
        (fun s act => act.Granted symbolic 0 sampleSecrets s) sampleAttacked forgedRun ∧
      ¬ ((runFrom (AttackedSession.step symbolic 0) sampleAttacked forgedRun).accepted
          .alice).Sublist
        ((runFrom (AttackedSession.step symbolic 0) sampleAttacked forgedRun).given .bob) := by
  refine ⟨⟨forged_keys_not_secret.1, forged_keys_not_secret.2, ⟨?_, ?_, ?_⟩, trivial⟩, ?_⟩
  · intro plaintext h
    obtain rfl := Option.some.inj h
    exact .head _
  · intro plaintext h
    cases (show none = some plaintext from h)
  · intro q hq plaintext h
    obtain rfl := Option.some.inj hq
    obtain rfl := Option.some.inj h
    exact .tail _ (.head _)
  · intro h
    have hlen := h.length_le
    exact absurd hlen (by decide)

/-- Alice's message reaches Bob. -/
def metRun : List (AttackAction SymKey) :=
  [.encrypt .alice false false [1] 16,
    .deliver .bob false sampleReceiveDraws (clientMessageOf [] (encRatchetMessage symbolic
      sampleSession (emittedHeader false sampleSession) [1] 16) fun _ => 0)]

/-- Bob after that run. -/
def sampleBob : RatchetState SymKey :=
  (runFrom (AttackedSession.step symbolic 0) sampleAttacked metRun).state .bob

/-- Bob's answer reaches Alice twice. -/
def replayedRun : List (AttackAction SymKey) :=
  let m := clientMessageOf [] (encRatchetMessage symbolic sampleBob (emittedHeader false sampleBob)
    [2] 16) fun _ => 0
  metRun ++ [.encrypt .bob false false [2] 16, .deliver .alice false sampleReceiveDraws m,
    .deliver .alice false sampleReceiveDraws m]

set_option maxRecDepth 20000 in
/-- Alice accepts the answer once. -/
theorem accepted_sublist_given_replayed :
    (runFrom (AttackedSession.step symbolic 0) sampleAttacked replayedRun).accepted .alice = [[2]] ∧
      ((runFrom (AttackedSession.step symbolic 0) sampleAttacked replayedRun).accepted
          .alice).Sublist
        ((runFrom (AttackedSession.step symbolic 0) sampleAttacked replayedRun).given .bob) := by
  refine ⟨rfl, accepted_sublist_given symbolic symbolic_collisionFree 0 _ _ _ _ (symbolicPair 2)
    sampleSession sampleSecrets rfl sampleSession_setup replayedRun ?_⟩
  have hfits : ∀ paddedLen, some 16 = some paddedLen → PayloadFits [1] paddedLen := by
    rintro paddedLen ⟨⟩
    exact ⟨by decide, by decide, by decide⟩
  refine ⟨⟨hfits, trivial⟩, ⟨trivial, trivial⟩, ⟨hfits, trivial⟩, ⟨⟨?_, ?_, ?_⟩, fun _ => rfl⟩,
    ⟨⟨?_, ?_, ?_⟩, ?_⟩, trivial⟩
  · intro plaintext h
    cases (show none = some plaintext from h)
  · intro plaintext h
    obtain rfl := Option.some.inj h
    exact .tail _ (.tail _ (.head _))
  · intro q hq plaintext h
    obtain rfl := Option.some.inj hq
    obtain rfl := Option.some.inj h
    decide +kernel
  · intro plaintext h
    obtain rfl := Option.some.inj h
    exact .tail _ (.tail _ (.head _))
  · intro plaintext h
    cases (show none = some plaintext from h)
  · intro q hq
    cases (show none = some q from hq)
  · intro h
    cases (show SymKey.x3dh sampleSecrets 1 = SymKey.zero from h)

end SimpleGo
