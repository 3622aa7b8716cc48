import Mathlib.Data.List.Chain
import Mathlib.Order.Defs.LinearOrder
import SimpleGo.Peer.RetryIsolation

/-!
# The chain of agent messages

The messages that reach the server for a contact form a chain: each has a larger number than the
one before it and carries its hash. The number and the hash are kept in the active handshake
entry, are counted up or set there while a message is sent, and are in NVS only after an `OK`;
`handshake_set_active` takes them from there, also for the contact that is active already.
-/

namespace SimpleGo

open Lib

/-- A message that continues a chain after another. -/
def Continues (sha256 : List UInt8 → Bytes 32) (previous message : List UInt8) : Prop :=
  sndMsgId previous < sndMsgId message ∧ prevMsgHash message = (sha256 previous).toList

/-- The numbers increase, and each message but the first carries the hash of the one before. -/
structure ChainIntact (sha256 : List UInt8 → Bytes 32) (messages : List (List UInt8)) : Prop where
  increasing : (messages.map sndMsgId).Pairwise (· < ·)
  linked : messages.IsChain fun previous message => prevMsgHash message = (sha256 previous).toList

/-- A chain whose messages continue each other is intact. -/
theorem chainIntact_of_continues {sha256 : List UInt8 → Bytes 32} {messages : List (List UInt8)}
    (h : messages.IsChain (Continues sha256)) : ChainIntact sha256 messages where
  increasing := by
    have hids : (messages.map sndMsgId).IsChain (· < ·) :=
      (List.isChain_map sndMsgId).2 (h.imp fun _ _ hab => hab.1)
    have : IsTrans UInt64 (· < ·) := ⟨fun _ _ _ hab hbc => UInt64.lt_trans hab hbc⟩
    exact List.isChain_iff_pairwise.1 hids
  linked := h.imp fun _ _ hab => hab.2

/-- The counters of an entry are those after the last message of a chain. -/
def HandshakeEntry.After (sha256 : List UInt8 → Bytes 32) (entry : HandshakeEntry)
    (messages : List (List UInt8)) : Prop :=
  ∀ last ∈ messages.getLast?, 1 ≤ sndMsgId last ∧ sndMsgId last ≤ entry.msgId ∧
    entry.prevMsgHash = sha256 last

namespace PeerTasks

/-- The messages that have reached the server for a contact. -/
def reached (s : PeerTasks) (c : ℕ) : List (List UInt8) :=
  (s.wire.filter fun b => b.reached && b.transmission.contact == c).map (·.transmission.message)

/-- Every message that reached the server for the contact was answered with `OK`, and no other
was. -/
def Settled (s : PeerTasks) (c : ℕ) : Prop :=
  ∀ b ∈ s.wire, b.transmission.contact = c → b.reached = b.accepted

/-- The entry a contact is given when it becomes active. -/
def nextEntry (s : PeerTasks) (c : ℕ) : HandshakeEntry :=
  (s.handshakes.stored c).getD (s.handshakes.entries c)

/-- The contact is in use, or can be after a reboot. -/
def Live (s : PeerTasks) (c : ℕ) : Prop :=
  s.contactActive c = true ∨ (s.sessionStored = true ∧ s.sessionLoads = true)

end PeerTasks

/-- The saves land; nothing more is sent for a contact once a message has reached the server
without its `OK`, or the other way round; the number does not wrap; and a transmission that an
earlier call has left in the buffer does not go out. -/
def PeerStep.KeepsCounters (s : PeerTasks) : PeerStep → Prop
  | .setActive _ lands => lands = true
  | .send idx kind env =>
    (env.switchLands = true ∧ env.hashLands = true ∧ env.retryLands = true) ∧
    s.Settled idx ∧ (s.nextEntry idx).msgId ≠ UInt64.ofNat (2 ^ 64 - 1) ∧
    ∀ saved p, s.retry = some saved → s.loadablePeer idx = some p → kind.retries = true →
      env.blockAlloc = true →
      (env.ReachesWrite kind ∧ (env.write.written = true → env.write.accepted = true)) ∨
      env.reconnect.succeeds p = false ∨ env.rewrite.written = false
  | _ => True

/-! ### Entries and arrays -/

section Entries

variable {sha256 : List UInt8 → Bytes 32}

/-- The number after one that is not the largest. -/
theorem uint64_lt_succ {x : UInt64} (h : x ≠ UInt64.ofNat (2 ^ 64 - 1)) : x < x + 1 := by
  have hne : x.toNat ≠ 2 ^ 64 - 1 := fun hx => h (by rw [← hx, UInt64.ofNat_toNat])
  have hlt := x.toNat_lt
  rw [UInt64.lt_iff_toNat_lt, UInt64.toNat_add]
  simp only [UInt64.reduceToNat]
  omega

/-- The next number is positive unless the counter wraps. -/
theorem uint64_one_le_succ {x : UInt64} (h : x ≠ UInt64.ofNat (2 ^ 64 - 1)) : 1 ≤ x + 1 := by
  have hlt := uint64_lt_succ h
  rw [UInt64.lt_iff_toNat_lt] at hlt
  rw [UInt64.le_iff_toNat_le, UInt64.toNat_one]
  omega

/-- Any entry will do before the first message. -/
theorem HandshakeEntry.after_nil (entry : HandshakeEntry) : entry.After sha256 [] := nofun

/-- The entry once its message has been accepted. -/
theorem HandshakeEntry.after_append {entry : HandshakeEntry} {message : List UInt8}
    (messages : List (List UInt8)) (hone : 1 ≤ sndMsgId message)
    (hid : sndMsgId message ≤ entry.msgId) (hhash : entry.prevMsgHash = sha256 message) :
    entry.After sha256 (messages ++ [message]) := by
  intro last hlast
  rw [List.getLast?_concat, Option.mem_some_iff] at hlast
  subst hlast
  exact ⟨hone, hid, hhash⟩

/-- Counting up keeps the counters behind the last message. -/
theorem HandshakeEntry.After.countUp {entry : HandshakeEntry} {messages : List (List UInt8)}
    (h : entry.After sha256 messages) (hmax : entry.msgId ≠ UInt64.ofNat (2 ^ 64 - 1)) :
    HandshakeEntry.After sha256 { entry with msgId := entry.msgId + 1 } messages := by
  intro last hlast
  obtain ⟨hone, hid, hhash⟩ := h last hlast
  refine ⟨hone, ?_, hhash⟩
  exact UInt64.le_trans hid (UInt64.le_of_lt (uint64_lt_succ hmax))

/-- What a call builds continues the chain. -/
theorem HandshakeEntry.After.continues {entry : HandshakeEntry} {messages : List (List UInt8)}
    (h : entry.After sha256 messages) (hmax : entry.msgId ≠ UInt64.ofNat (2 ^ 64 - 1))
    (aMessage : List UInt8) :
    ∀ last ∈ messages.getLast?,
      Continues sha256 last (agentMessage (entry.msgId + 1) entry.prevMsgHash aMessage) := by
  intro last hlast
  obtain ⟨hone, hid, hhash⟩ := h last hlast
  have hlt : sndMsgId last < entry.msgId + 1 := UInt64.lt_of_le_of_lt hid (uint64_lt_succ hmax)
  refine ⟨by rwa [sndMsgId_agentMessage], ?_⟩
  rw [prevMsgHash_agentMessage ?_, hhash]
  intro heq
  rw [heq] at hlt
  exact UInt64.not_le.2 hlt hone

/-- What the array and NVS hold for a contact goes with the messages that reached the server. -/
structure HandshakeArray.Tracks (sha256 : List UInt8 → Bytes 32) (hs : HandshakeArray)
    (messages : List (List UInt8)) (c : ℕ) : Prop where
  stored : ∀ entry, hs.stored c = some entry → entry.After sha256 messages
  ram : c = hs.active ∨ hs.stored c = none → (hs.entries c).After sha256 messages
  saved : messages ≠ [] → hs.stored c ≠ none

namespace HandshakeArray

variable {hs : HandshakeArray} {messages : List (List UInt8)} {c : ℕ}

/-- The entry a contact is given when it becomes active goes with its messages. -/
theorem Tracks.next (h : hs.Tracks sha256 messages c) :
    ((hs.stored c).getD (hs.entries c)).After sha256 messages := by
  cases hstored : hs.stored c with
  | none => exact h.ram (Or.inr hstored)
  | some entry => exact h.stored entry hstored

/-- Saving the active entry. -/
theorem Tracks.saveState (h : hs.Tracks sha256 messages c) :
    (hs.saveState true).Tracks sha256 messages c := by
  simp only [HandshakeArray.saveState, if_true]
  by_cases hc : c = hs.active
  · subst hc
    have hram := h.ram (Or.inl rfl)
    refine ⟨fun entry hentry => ?_, fun _ => hram, fun _ => ?_⟩
    · simp only [Function.update_self, Option.some.injEq] at hentry
      exact hentry ▸ hram
    · simp only [Function.update_self]
      exact fun hnone => absurd hnone (Option.some_ne_none _)
  · refine ⟨fun entry hentry => ?_, fun hor => ?_, fun hne => ?_⟩
    · simp only [Function.update_of_ne hc] at hentry
      exact h.stored entry hentry
    · simp only [Function.update_of_ne hc] at hor
      exact h.ram hor
    · simp only [Function.update_of_ne hc]
      exact h.saved hne

/-- Loading the entry that becomes active. -/
theorem Tracks.activate (h : hs.Tracks sha256 messages c) (idx : ℕ) :
    ({ hs with active := idx } : HandshakeArray).loadState.Tracks sha256 messages c := by
  simp only [loadState, current]
  by_cases hc : c = idx
  · subst hc
    refine ⟨h.stored, fun _ => ?_, h.saved⟩
    simp only [Function.update_self]
    exact h.next
  · refine ⟨h.stored, fun hor => ?_, h.saved⟩
    simp only [Function.update_of_ne hc]
    exact h.ram (hor.imp_left fun heq => absurd heq hc)

/-- `handshake_set_active` with a save that lands. -/
theorem Tracks.setActive (h : hs.Tracks sha256 messages c) (idx : ℕ) :
    (hs.setActive idx true).Tracks sha256 messages c := by
  rw [HandshakeArray.setActive]
  split
  · exact h
  · split
    · exact h.saveState.activate idx
    · exact h.activate idx

/-- The entry that is active after the switch. -/
theorem setActive_current (hs : HandshakeArray) {idx : ℕ} (h : idx < maxContacts) (lands : Bool) :
    (hs.setActive idx lands).current = (hs.stored idx).getD (hs.entries idx) := by
  rw [HandshakeArray.setActive, if_neg (by omega)]
  simp only [current, loadState, Function.update_self]
  split
  · rename_i hne
    cases lands with
    | false => rfl
    | true => simp only [HandshakeArray.saveState, if_true, Function.update_of_ne (Ne.symm hne)]
  · rfl

/-- Counting up. -/
theorem Tracks.countUp (h : hs.Tracks sha256 messages c)
    (hmax : hs.current.msgId ≠ UInt64.ofNat (2 ^ 64 - 1)) :
    hs.countUp.Tracks sha256 messages c := by
  refine ⟨h.stored, fun hor => ?_, h.saved⟩
  simp only [HandshakeArray.countUp]
  by_cases hc : c = hs.active
  · subst hc
    rw [Function.update_self]
    exact (h.ram (Or.inl rfl)).countUp hmax
  · rw [Function.update_of_ne hc]
    exact h.ram hor

/-- Setting the hash leaves the other contacts alone. -/
theorem Tracks.setPrevMsgHash (h : hs.Tracks sha256 messages c) (hc : c ≠ hs.active)
    (hash : Bytes 32) (lands : Bool) :
    (hs.setPrevMsgHash hash lands).Tracks sha256 messages c := by
  have hset : ({ hs with
      entries := Function.update hs.entries hs.active { hs.current with prevMsgHash := hash }
      } : HandshakeArray).Tracks sha256 messages c :=
    ⟨h.stored, fun hor => by simpa only [Function.update_of_ne hc] using h.ram hor, h.saved⟩
  rw [HandshakeArray.setPrevMsgHash]
  cases lands with
  | false => exact hset
  | true => exact hset.saveState

/-- Setting the hash of an accepted message. -/
theorem tracks_setPrevMsgHash {message : List UInt8} (messages : List (List UInt8))
    (hone : 1 ≤ sndMsgId message) (hid : sndMsgId message ≤ hs.current.msgId) :
    (hs.setPrevMsgHash (sha256 message) true).Tracks sha256 (messages ++ [message]) hs.active := by
  have hafter : HandshakeEntry.After sha256 { hs.current with prevMsgHash := sha256 message }
      (messages ++ [message]) := HandshakeEntry.after_append messages hone hid rfl
  rw [HandshakeArray.setPrevMsgHash]
  simp only [HandshakeArray.saveState, if_true, current, Function.update_self]
  refine ⟨fun entry hentry => ?_, fun _ => ?_, fun _ => ?_⟩
  · simp only [Function.update_self, Option.some.injEq] at hentry
    exact hentry ▸ hafter
  · simp only [Function.update_self]
    exact hafter
  · simp only [Function.update_self]
    exact fun hnone => absurd hnone (Option.some_ne_none _)

/-- The array after a reset, with the entry of slot 0 loaded. -/
theorem Tracks.reset (h : hs.Tracks sha256 messages c) :
    (⟨fun _ => .zero, 0, hs.stored⟩ : HandshakeArray).loadState.Tracks sha256 messages c := by
  have hnone (hstored : hs.stored c = none) (entry : HandshakeEntry) :
      entry.After sha256 messages := by
    by_cases hempty : messages = []
    · rw [hempty]
      exact entry.after_nil
    · exact absurd hstored (h.saved hempty)
  refine ⟨h.stored, fun hor => ?_, h.saved⟩
  simp only [loadState, current]
  cases hstored : hs.stored c with
  | none => exact hnone hstored _
  | some entry =>
    by_cases hc : c = 0
    · subst hc
      rw [Function.update_self, hstored]
      exact h.stored entry hstored
    · rcases hor with hor | hor
      · exact absurd hor hc
      · cases hstored.symm.trans hor

/-- A device that has sent nothing. -/
theorem tracks_nil (hs : HandshakeArray) (c : ℕ) : hs.Tracks sha256 [] c :=
  ⟨fun entry _ => entry.after_nil, fun _ => (hs.entries c).after_nil, fun h => absurd rfl h⟩

end HandshakeArray

end Entries

/-! ### Runs -/

namespace PeerTasks

variable {sha256 : List UInt8 → Bytes 32} {s : PeerTasks}

/-- The invariant. -/
structure ChainInv (sha256 : List UInt8 → Bytes 32) (s : PeerTasks) : Prop where
  chain : ∀ c, (s.reached c).IsChain (Continues sha256)
  tracks : ∀ c, s.Live c → s.Settled c → s.handshakes.Tracks sha256 (s.reached c) c

/-- What a block adds to the messages of a contact. -/
theorem reached_record (s : PeerTasks) (tx : PeerTransmission) (link : PeerLink)
    (outcome : WriteOutcome) (isRetry : Bool) (c : ℕ) :
    (s.record tx link outcome isRetry).reached c =
      s.reached c ++ if outcome.reached && tx.contact == c then [tx.message] else [] := by
  simp only [reached, record, List.filter_append, List.map_append, List.filter_singleton]
  cases outcome.reached && tx.contact == c <;> rfl

/-- A contact stays settled when its block reaches the server exactly when it is accepted. -/
theorem settled_record (s : PeerTasks) (tx : PeerTransmission) (link : PeerLink)
    (outcome : WriteOutcome) (isRetry : Bool) (c : ℕ) :
    (s.record tx link outcome isRetry).Settled c ↔
      s.Settled c ∧ (tx.contact = c → outcome.reached = outcome.accepted) := by
  simp only [Settled, record, List.mem_append, List.mem_singleton]
  constructor
  · intro h
    exact ⟨fun b hb => h b (Or.inl hb), h _ (Or.inr rfl)⟩
  · rintro ⟨h, hlast⟩ b (hb | rfl)
    · exact h b hb
    · exact hlast

/-- The messages of a contact after a block that continues its chain. -/
theorem ChainInv.chain_record (h : ChainInv sha256 s) {tx : PeerTransmission}
    (hnext : ∀ last ∈ (s.reached tx.contact).getLast?, Continues sha256 last tx.message)
    (link : PeerLink) (outcome : WriteOutcome) (isRetry : Bool) (c : ℕ) :
    ((s.record tx link outcome isRetry).reached c).IsChain (Continues sha256) := by
  rw [reached_record]
  split
  · rename_i hnew
    rw [Bool.and_eq_true, beq_iff_eq] at hnew
    refine List.isChain_append.2 ⟨h.chain c, .singleton _, fun last hlast message hmessage => ?_⟩
    obtain rfl := Option.some.inj hmessage
    rw [← hnew.2] at hlast
    exact hnext last hlast
  · rw [List.append_nil]
    exact h.chain c

/-- A block without an `OK`. -/
theorem ChainInv.record (h : ChainInv sha256 s) (tx : PeerTransmission)
    (hnext : ∀ last ∈ (s.reached tx.contact).getLast?, Continues sha256 last tx.message)
    (link : PeerLink) {outcome : WriteOutcome} (isRetry : Bool)
    (haccepted : outcome.accepted = false) :
    ChainInv sha256 (s.record tx link outcome isRetry) where
  chain := h.chain_record hnext link outcome isRetry
  tracks := by
    intro c hlive hsettled
    rw [settled_record] at hsettled
    rw [reached_record, if_neg, List.append_nil]
    · exact h.tracks c hlive hsettled.1
    · intro hnew
      rw [Bool.and_eq_true, beq_iff_eq] at hnew
      have := hsettled.2 hnew.2
      rw [hnew.1, haccepted] at this
      cases this

/-- A block with an `OK`, which sets the hash and saves the entry. -/
theorem ChainInv.accept (h : ChainInv sha256 s) (tx : PeerTransmission)
    (hnext : ∀ last ∈ (s.reached tx.contact).getLast?, Continues sha256 last tx.message)
    (hactive : s.handshakes.active = tx.contact) (hone : 1 ≤ sndMsgId tx.message)
    (hid : sndMsgId tx.message ≤ s.handshakes.current.msgId) (link : PeerLink)
    {outcome : WriteOutcome} (isRetry : Bool) (haccepted : outcome.accepted = true) :
    ChainInv sha256
      ((s.record tx link outcome isRetry).acceptHash tx (sha256 tx.message) true) where
  chain := h.chain_record hnext link outcome isRetry
  tracks := by
    intro c hlive hsettled
    have hboth := (settled_record s tx link outcome isRetry c).1 hsettled
    have hreached := reached_record s tx link outcome isRetry c
    change HandshakeArray.Tracks sha256 (s.handshakes.setPrevMsgHash (sha256 tx.message) true)
      ((s.record tx link outcome isRetry).reached c) c
    rw [hreached]
    by_cases hc : tx.contact = c
    · subst hc
      rw [hboth.2 rfl, haccepted, beq_self_eq_true, Bool.and_self, if_pos rfl, ← hactive]
      exact HandshakeArray.tracks_setPrevMsgHash _ hone hid
    · rw [beq_eq_false_iff_ne.2 hc, Bool.and_false, if_neg Bool.false_ne_true, List.append_nil]
      exact (h.tracks c hlive hboth.1).setPrevMsgHash (fun heq => hc (hactive ▸ heq.symm)) _ _

/-- The state in which a call sends its own message. -/
structure CountsFor (sha256 : List UInt8 → Bytes 32) (s : PeerTasks) (idx : ℕ) : Prop where
  inv : ChainInv sha256 s
  active : s.handshakes.active = idx
  after : s.handshakes.current.After sha256 (s.reached idx)
  notMax : s.handshakes.current.msgId ≠ UInt64.ofNat (2 ^ 64 - 1)

/-- The buffer holds a message that still continues the chain of its contact, with the counters
of the active entry. -/
def SavedContinues (sha256 : List UInt8 → Bytes 32) (s : PeerTasks) (saved : RetryBuffer) : Prop :=
  saved.transmission.contact = s.handshakes.active ∧
    saved.prevMsgHash = sha256 saved.transmission.message ∧
    1 ≤ sndMsgId saved.transmission.message ∧
    sndMsgId saved.transmission.message ≤ s.handshakes.current.msgId ∧
    ∀ last ∈ (s.reached saved.transmission.contact).getLast?,
      Continues sha256 last saved.transmission.message

/-- The own message of a call: afterwards the buffer holds it, or what it held before, and then
either that does not matter or it does not go out. -/
theorem CountsFor.encryptAndSend {idx : ℕ} (h : s.CountsFor sha256 idx) (kind : AgentSend)
    {env : SendEnv} (hlands : env.hashLands = true) :
    let result := s.encryptAndSend sha256 idx kind env
    ChainInv sha256 result.1 ∧
      (result.2 = false → kind.retries = true → ∀ saved, result.1.retry = some saved →
        result.1.SavedContinues sha256 saved ∨
        (s.retry = some saved ∧ ¬(env.ReachesWrite kind ∧
          (env.write.written = true → env.write.accepted = true)))) := by
  have hid : sndMsgId (s.handshakes.builtMessage kind) = s.handshakes.current.msgId + 1 :=
    sndMsgId_agentMessage _ _ _
  have hcurrent : s.counted.handshakes.current.msgId = s.handshakes.current.msgId + 1 := by
    simp only [counted, HandshakeArray.countUp, HandshakeArray.current, Function.update_self]
  have hone : 1 ≤ sndMsgId (s.handshakes.builtMessage kind) := by
    rw [hid]
    exact uint64_one_le_succ h.notMax
  have hle : sndMsgId (s.handshakes.builtMessage kind) ≤ s.counted.handshakes.current.msgId := by
    rw [hid, hcurrent]
    exact UInt64.le_refl _
  have hcounted : ChainInv sha256 s.counted :=
    ⟨h.inv.chain, fun c hlive hsettled => (h.inv.tracks c hlive hsettled).countUp h.notMax⟩
  have hnext : ∀ last ∈ (s.counted.reached idx).getLast?,
      Continues sha256 last (s.handshakes.builtMessage kind) :=
    h.after.continues h.notMax kind.aMessage
  rcases s.encryptAndSend_cases sha256 idx kind env with ⟨hnot, heq⟩ | ⟨hnone, heq⟩ |
    ⟨link, hwritten, hlink, haccepted, heq⟩ | ⟨link, hwritten, hlink, haccepted, heq⟩
  · rw [heq]
    refine ⟨hcounted, fun _ _ saved hsaved => Or.inr ⟨hsaved, fun hsettles => hnot ?_⟩⟩
    exact ⟨AgentSend.fits_of_le hsettles.1.1 _ _, hsettles.1.2⟩
  · rw [heq]
    cases hkind : kind.retries with
    | false => exact ⟨hcounted, fun _ hretries => absurd hretries Bool.false_ne_true⟩
    | true =>
      simp only [if_true]
      refine ⟨⟨hcounted.chain, hcounted.tracks⟩, fun _ _ saved hsaved => ?_⟩
      simp only [saveRetry] at hsaved
      cases halloc : env.retryAlloc with
      | false => simp [halloc] at hsaved
      | true =>
        simp only [halloc, if_true, Option.some.injEq] at hsaved
        subst hsaved
        exact Or.inl ⟨h.active.symm, rfl, hone, hle, hnext⟩
  · rw [heq]
    refine ⟨hcounted.record (s.builtTransmission idx kind) hnext link false haccepted,
      fun _ _ saved hsaved => Or.inr ⟨hsaved, fun hsettles => ?_⟩⟩
    exact absurd (hsettles.2 hwritten) (by simp [haccepted])
  · rw [heq, hlands]
    exact ⟨hcounted.accept (s.builtTransmission idx kind) hnext h.active hone hle link false
      haccepted, fun hfailed => absurd hfailed.symm Bool.false_ne_true⟩

/-- The retry after a failed send. -/
theorem ChainInv.retryAfterFailure (h : ChainInv sha256 s) {p : PeerQueue} {env : SendEnv}
    (hpending : s.peer.pendingPeer = p) (hlands : env.retryLands = true)
    (hsaved : ∀ saved, s.retry = some saved → s.SavedContinues sha256 saved ∨
      env.reconnect.succeeds p = false ∨ env.rewrite.written = false) :
    ChainInv sha256 (s.retryAfterFailure env).1 := by
  have hpeer (peer : PeerState) (retry : Option RetryBuffer) :
      ChainInv sha256 { s with peer := peer, retry := retry } := ⟨h.chain, h.tracks⟩
  rw [PeerTasks.retryAfterFailure]
  by_cases hsome : s.retry.isSome = true
  · rw [if_pos hsome]
    cases hmade : s.peer.forceReconnect env.reconnect with
    | mk made success =>
      cases success with
      | false => exact hpeer made s.retry
      | true =>
        have hsucceeds := congrArg Prod.snd hmade
        simp only [PeerState.forceReconnect, PeerState.peerConnect_snd,
          PeerState.peerDisconnect_pendingPeer, hpending] at hsucceeds
        rcases ({ s with peer := made } : PeerTasks).handshakeRetrySend_cases env with
          ⟨_, heq⟩ | ⟨saved, _, _, heq⟩ | ⟨saved, link, hretry, hwritten, _, haccepted, heq⟩ |
          ⟨saved, link, hretry, hwritten, _, haccepted, heq⟩
        · simp only [heq]
          exact hpeer made s.retry
        · simp only [heq]
          exact hpeer made _
        · rcases hsaved saved hretry with ⟨_, _, _, _, hnext⟩ | hfails | hfails
          · simp only [heq]
            have hblock := (hpeer made s.retry).record
              (({ s with peer := made } : PeerTasks).resigned saved).transmission hnext link true
              haccepted
            exact ⟨hblock.chain, hblock.tracks⟩
          · exact absurd hsucceeds (by simp [hfails])
          · exact absurd hwritten (by simp [hfails])
        · rcases hsaved saved hretry with ⟨hcontact, hhash, hone, hid, hnext⟩ | hfails | hfails
          · simp only [heq, hhash, hlands]
            have hblock := (hpeer made s.retry).accept
              (({ s with peer := made } : PeerTasks).resigned saved).transmission hnext
              hcontact.symm hone hid link true haccepted
            exact ⟨hblock.chain, hblock.tracks⟩
          · exact absurd hsucceeds (by simp [hfails])
          · exact absurd hwritten (by simp [hfails])
  · rw [if_neg hsome]
    exact h

/-- A call for a contact, up to its report. -/
theorem ChainInv.peerSendResult (h : ChainInv sha256 s) {idx : ℕ} {kind : AgentSend}
    {env : SendEnv} (hcond : PeerStep.KeepsCounters s (.send idx kind env)) :
    ChainInv sha256 (s.peerSendResult sha256 idx kind env).1 := by
  obtain ⟨⟨hswitch, hhash, hretryLands⟩, hsettled, hmax, holder⟩ := hcond
  rcases s.peerSendResult_cases sha256 idx kind env with ⟨-, heq⟩ |
    ⟨p, hidx, hcontact, hload, hready⟩
  · rw [heq]
    exact h
  · have hreadyInv : ChainInv sha256 (s.ready idx p env) := by
      refine ⟨h.chain, fun c hlive hc => ?_⟩
      simp only [ready, hswitch]
      exact (h.tracks c hlive hc).setActive idx
    rcases hready with heq | ⟨_, hblock, heq⟩
    · rw [heq]
      exact hreadyInv
    · have hcurrent : (s.ready idx p env).handshakes.current = s.nextEntry idx :=
        s.handshakes.setActive_current hidx env.switchLands
      have hcounts : (s.ready idx p env).CountsFor sha256 idx :=
        ⟨hreadyInv, HandshakeArray.setActive_active _ hidx _,
          by rw [hcurrent]; exact (h.tracks idx (Or.inl hcontact) hsettled).next,
          by rw [hcurrent]; exact hmax⟩
      obtain ⟨hsent, hbuffer⟩ := hcounts.encryptAndSend kind hhash
      have hpending := (s.ready idx p env).encryptAndSend_peer sha256 idx kind env
      rw [heq, sendOrRetry]
      cases hresult : (s.ready idx p env).encryptAndSend sha256 idx kind env with
      | mk sent success =>
        rw [hresult] at hsent hbuffer hpending
        cases success with
        | true => exact hsent
        | false =>
          cases hkind : kind.retries with
          | false => exact hsent
          | true =>
            have hp : sent.peer.pendingPeer = p :=
              (congrArg PeerState.pendingPeer hpending).trans
                (s.ready_sendsFor hidx hload env).pending
            refine hsent.retryAfterFailure hp hretryLands fun saved hsaved => ?_
            rcases hbuffer rfl hkind saved hsaved with hown | ⟨hold, hnot⟩
            · exact Or.inl hown
            · rcases holder saved p hold hload hkind hblock with hsettles | hfails
              · exact absurd hsettles hnot
              · exact Or.inr hfails

/-- One step that meets the condition keeps the invariant. -/
theorem ChainInv.step (h : ChainInv sha256 s) {a : PeerStep} (hcond : a.KeepsCounters s) :
    ChainInv sha256 (s.step sha256 a) := by
  cases a with
  | connect host port outcome => exact ⟨h.chain, h.tracks⟩
  | disconnect => exact ⟨h.chain, h.tracks⟩
  | loadState idx => exact ⟨h.chain, h.tracks⟩
  | parseInvitation p => exact ⟨h.chain, h.tracks⟩
  | setActive idx lands =>
    cases hcond
    exact ⟨h.chain, fun c hlive hsettled => (h.tracks c hlive hsettled).setActive idx⟩
  | send idx kind env =>
    have hresult := h.peerSendResult hcond
    exact ⟨hresult.chain, hresult.tracks⟩
  | reboot connects =>
    refine ⟨h.chain, fun c hlive hsettled => ?_⟩
    -- a slot is in use after the reboot only when the session was restored
    have hstored : s.sessionStored = true ∧ s.sessionLoads = true := by
      rcases hlive with hactive | hboth
      · simp only [PeerTasks.step, reboot] at hactive
        cases connects <;> cases hstored : s.sessionStored <;> cases hloads : s.sessionLoads <;>
          simp [hstored, hloads] at hactive ⊢
      · exact hboth
    simp only [PeerTasks.step, reboot, hstored.1, if_true]
    exact (h.tracks c (Or.inr hstored) hsettled).reset

/-- A device that has sent nothing. -/
theorem chainInv_start (sha256 : List UInt8 → Bytes 32) (contactActive : ℕ → Bool)
    (storedPeer : ℕ → Option PeerQueue) (storedHandshake : ℕ → Option HandshakeEntry)
    (sessionStored sessionLoads : Bool) :
    ChainInv sha256
      (start contactActive storedPeer storedHandshake sessionStored sessionLoads) :=
  ⟨fun _ => .nil, fun c _ _ => HandshakeArray.tracks_nil _ c⟩

end PeerTasks

/-- The messages that reach the server form a chain, for each contact, in every run whose steps
keep the counters. -/
theorem message_chain_intact (sha256 : List UInt8 → Bytes 32) (contactActive : ℕ → Bool)
    (storedPeer : ℕ → Option PeerQueue) (storedHandshake : ℕ → Option HandshakeEntry)
    (sessionStored sessionLoads : Bool) (labels : List PeerStep)
    (h : StepsMeet (PeerTasks.step sha256) (fun s a => a.KeepsCounters s)
      (PeerTasks.start contactActive storedPeer storedHandshake sessionStored sessionLoads) labels)
    (c : ℕ) :
    ChainIntact sha256 ((runFrom (PeerTasks.step sha256)
      (PeerTasks.start contactActive storedPeer storedHandshake sessionStored sessionLoads)
      labels).reached c) := by
  have hinv := h.invariant (fun s a hs hcond => PeerTasks.ChainInv.step hs hcond)
    (PeerTasks.chainInv_start sha256 contactActive storedPeer storedHandshake sessionStored
      sessionLoads)
  exact chainIntact_of_continues (hinv.chain c)

/-- Whether a contact is settled can be computed. -/
instance PeerTasks.decidableSettled (s : PeerTasks) (c : ℕ) : Decidable (s.Settled c) :=
  inferInstanceAs (Decidable (∀ b ∈ s.wire, b.transmission.contact = c → b.reached = b.accepted))

/-- A failed write and its retry, a switch, a reboot and another message. -/
theorem message_chain_intact_over_reboot :
    ChainIntact toySha256 ((runFrom (PeerTasks.step toySha256) twoPeers
      [.send 1 (.chat [104]) failedWrite, .setActive 2 true, .reboot true,
        .send 1 (.chat [105]) smoothSend]).reached 1) := by
  have hlater : (runFrom (PeerTasks.step toySha256) twoPeers
      [.send 1 (.chat [104]) failedWrite, .setActive 2 true, .reboot true]).retry = none := by
    decide
  have hsettled : (runFrom (PeerTasks.step toySha256) twoPeers
      [.send 1 (.chat [104]) failedWrite, .setActive 2 true, .reboot true]).Settled 1 ∧
      ((runFrom (PeerTasks.step toySha256) twoPeers
        [.send 1 (.chat [104]) failedWrite, .setActive 2 true, .reboot true]).nextEntry 1).msgId ≠
        UInt64.ofNat (2 ^ 64 - 1) := by
    decide
  have hmeets : StepsMeet (PeerTasks.step toySha256) (fun s a => a.KeepsCounters s) twoPeers
      [.send 1 (.chat [104]) failedWrite, .setActive 2 true, .reboot true,
        .send 1 (.chat [105]) smoothSend] := by
    refine ⟨⟨⟨rfl, rfl, rfl⟩, nofun, by decide, nofun⟩, rfl, trivial,
      ⟨⟨rfl, rfl, rfl⟩, hsettled.1, hsettled.2, fun saved p hsaved => ?_⟩, trivial⟩
    cases hlater.symm.trans hsaved
  exact message_chain_intact toySha256 _ _ _ _ _ _ hmeets 1

/-- A message that has reached the server without an answer is forgotten when its contact is
selected again: the next one has the same number. -/
theorem number_used_again_after_no_response :
    ¬∀ (sha256 : List UInt8 → Bytes 32) (contactActive : ℕ → Bool)
      (storedPeer : ℕ → Option PeerQueue) (storedHandshake : ℕ → Option HandshakeEntry)
      (sessionStored sessionLoads : Bool) (labels : List PeerStep) (c : ℕ),
      ChainIntact sha256 ((runFrom (PeerTasks.step sha256)
        (PeerTasks.start contactActive storedPeer storedHandshake sessionStored sessionLoads)
        labels).reached c) := by
  intro h
  have hrun := h toySha256 (fun i => i = 1 || i = 2)
    (fun i => if i = 1 then some (peerOn 97) else if i = 2 then some (peerOn 98) else none)
    (fun i => if i = 1 then some ⟨4, zeroBytes 32⟩ else none) true true
    [.send 1 (.chat [104]) { smoothSend with write := ⟨true, true, false⟩ },
      .send 1 (.chat [105]) smoothSend] 1
  have hids : ((runFrom (PeerTasks.step toySha256)
      (PeerTasks.start (fun i => i = 1 || i = 2)
        (fun i => if i = 1 then some (peerOn 97) else if i = 2 then some (peerOn 98) else none)
        (fun i => if i = 1 then some ⟨4, zeroBytes 32⟩ else none) true true)
      [.send 1 (.chat [104]) { smoothSend with write := ⟨true, true, false⟩ },
        .send 1 (.chat [105]) smoothSend]).reached 1).map sndMsgId = [5, 5] := by
    decide
  have hincreasing := hids ▸ hrun.increasing
  simp at hincreasing

end SimpleGo
