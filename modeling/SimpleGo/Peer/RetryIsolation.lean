import SimpleGo.Peer.Connection

/-!
# The retry buffer

One buffer keeps the transmission whose write failed last, for all contacts. The calls that find
it pending after a failure of their own send it as if it were theirs. It stays with its contact
as long as a call that fails does so at its own write, which replaces the buffer, or finds
nothing older in it that would go out.
-/

namespace SimpleGo

open Lib

/-- The block went to the peer queue of the contact its message was built for. -/
def SentBlock.AtOwnQueue (s : PeerTasks) (b : SentBlock) : Prop :=
  ∃ p, s.loadablePeer b.transmission.contact = some p ∧ b.link.host = p.hostName ∧
    b.link.port = p.port ∧ b.transmission.queueId = p.queueIdBytes

/-- Saved transmissions go to the queue of their contact, a transmission sets the hash of its
contact only, and a call reports success only for a message of its own that was written. -/
structure PeerTasks.RetryIsolated (s : PeerTasks) : Prop where
  ownQueue : ∀ b ∈ s.wire, b.isRetry = true → b.AtOwnQueue s
  ownHash : ∀ u ∈ s.hashUpdates, u.slot = u.transmission.contact
  ownReport : ∀ call r, s.reports[call]? = some r → r.success = true →
    ∃ b ∈ s.wire, b.transmission.call = call

/-- The call gets to its own write, if it gets as far as allocating the block. -/
def SendEnv.ReachesWrite (kind : AgentSend) (env : SendEnv) : Prop :=
  kind.aMessage.length ≤ 982 ∧ env.encrypts = true

/-- A transmission that an earlier call has left in the buffer is not taken for the call's own:
the own write fails, or is answered with `OK`; the connection is not made again, or the older
transmission cannot be written; or it is for the same contact, and either is not answered with
`OK` or goes out after the own message. -/
def PeerStep.LeavesOlder (s : PeerTasks) : PeerStep → Prop
  | .send idx kind env =>
    ∀ saved p, s.retry = some saved → s.loadablePeer idx = some p → kind.retries = true →
      env.blockAlloc = true →
      (env.ReachesWrite kind ∧ (env.write.written = true → env.write.accepted = true)) ∨
      env.reconnect.succeeds p = false ∨ env.rewrite.written = false ∨
      (saved.contactSlot = idx ∧ (env.rewrite.accepted = false ∨
        (env.ReachesWrite kind ∧ env.write.written = true)))
  | _ => True

namespace PeerTasks

/-- The invariant: what is saved is addressed to the contact it was built for. -/
structure RetryInv (s : PeerTasks) : Prop where
  isolated : s.RetryIsolated
  saved : ∀ b, s.retry = some b → b.contactSlot = b.transmission.contact ∧
    ∃ p, s.loadablePeer b.transmission.contact = some p ∧ b.transmission.queueId = p.queueIdBytes

/-- A recorded block keeps the isolation, if a retry is at its own queue. -/
theorem RetryIsolated.record {s : PeerTasks} (h : s.RetryIsolated) {tx : PeerTransmission}
    {link : PeerLink} {outcome : WriteOutcome} {isRetry : Bool}
    (hown : isRetry = true → ∃ p, s.loadablePeer tx.contact = some p ∧ link.host = p.hostName ∧
      link.port = p.port ∧ tx.queueId = p.queueIdBytes) :
    (s.record tx link outcome isRetry).RetryIsolated where
  ownQueue := by
    intro b hb hretry
    rcases List.mem_append.1 hb with hb | hb
    · exact h.ownQueue b hb hretry
    · obtain rfl := List.mem_singleton.1 hb
      exact hown hretry
  ownHash := h.ownHash
  ownReport := by
    intro call r hr hsuccess
    obtain ⟨b, hb, hcall⟩ := h.ownReport call r hr hsuccess
    exact ⟨b, List.mem_append_left _ hb, hcall⟩

/-- A hash that is set in the entry of the transmission's contact keeps the isolation. -/
theorem RetryIsolated.acceptHash {s : PeerTasks} (h : s.RetryIsolated) (tx : PeerTransmission)
    (hactive : s.handshakes.active = tx.contact) (hash : Bytes 32) (lands : Bool) :
    (s.acceptHash tx hash lands).RetryIsolated where
  ownQueue := h.ownQueue
  ownHash := by
    intro u hu
    rcases List.mem_append.1 hu with hu | hu
    · exact h.ownHash u hu
    · obtain rfl := List.mem_singleton.1 hu
      exact hactive
  ownReport := h.ownReport

/-- The number of the call has a block of its own. -/
def OwnWritten (s : PeerTasks) : Prop := ∃ b ∈ s.wire, b.transmission.call = s.reports.length

/-- What is written was made for its own call. -/
theorem ownWritten_record (s : PeerTasks) {tx : PeerTransmission} (link : PeerLink)
    (outcome : WriteOutcome) (isRetry : Bool) (h : tx.call = s.reports.length) :
    (s.record tx link outcome isRetry).OwnWritten :=
  ⟨_, List.mem_append_right _ (List.mem_singleton_self _), h⟩

/-- The state in which a call for a contact sends: its peer queue is loaded, and its entry is
active. -/
structure SendsFor (s : PeerTasks) (idx : ℕ) (p : PeerQueue) : Prop where
  loaded : s.loadablePeer idx = some p
  pending : s.peer.pendingPeer = p
  lastHost : s.peer.lastHost = p.hostName
  lastPort : s.peer.lastPort = p.port
  active : s.handshakes.active = idx

/-- What the retry after a failed send must find in the buffer. -/
def RetriesOwn (s : PeerTasks) (idx : ℕ) (p : PeerQueue) (env : SendEnv) : Prop :=
  ∀ saved, s.retry = some saved → env.reconnect.succeeds p = true → env.rewrite.written = true →
    saved.transmission.contact = idx ∧
      (env.rewrite.accepted = true →
        saved.transmission.call = s.reports.length ∨ s.OwnWritten)

/-- The own message of a call: the buffer holds it afterwards, or what it held before. -/
theorem RetryInv.encryptAndSend {s : PeerTasks} (h : s.RetryInv) {idx : ℕ} {p : PeerQueue}
    (hfor : s.SendsFor idx p) (sha256 : List UInt8 → Bytes 32) (kind : AgentSend) (env : SendEnv)
    (hcond : ∀ saved, s.retry = some saved → kind.retries = true →
      (env.ReachesWrite kind ∧ (env.write.written = true → env.write.accepted = true)) ∨
      env.reconnect.succeeds p = false ∨ env.rewrite.written = false ∨
      (saved.contactSlot = idx ∧ (env.rewrite.accepted = false ∨
        (env.ReachesWrite kind ∧ env.write.written = true)))) :
    let result := s.encryptAndSend sha256 idx kind env
    result.1.RetryInv ∧ result.1.SendsFor idx p ∧ result.1.reports = s.reports ∧
      (result.2 = true → result.1.OwnWritten) ∧
      (result.2 = false → kind.retries = true → result.1.RetriesOwn idx p env) := by
  have hactive : s.counted.handshakes.active = idx := hfor.active
  have hcounted : s.counted.RetryInv := ⟨⟨h.isolated.ownQueue, h.isolated.ownHash,
    h.isolated.ownReport⟩, h.saved⟩
  have hcountedFor : s.counted.SendsFor idx p :=
    ⟨hfor.loaded, hfor.pending, hfor.lastHost, hfor.lastPort, hfor.active⟩
  have hfits (hreaches : env.ReachesWrite kind) :
      kind.fits (s.handshakes.builtMessage kind) = true ∧ env.encrypts = true :=
    ⟨AgentSend.fits_of_le hreaches.1 _ _, hreaches.2⟩
  rcases s.encryptAndSend_cases sha256 idx kind env with ⟨hnot, heq⟩ | ⟨hnone, heq⟩ |
    ⟨link, hwritten, hlink, haccepted, heq⟩ | ⟨link, hwritten, hlink, haccepted, heq⟩
  · -- the message is not built: the buffer is the old one
    rw [heq]
    refine ⟨hcounted, hcountedFor, rfl, nofun, fun _ hretries saved hsaved hsucceeds hrewritten => ?_⟩
    rcases hcond saved hsaved hretries with ⟨hreaches, _⟩ | hfails | hfails | ⟨hslot, hnotOk⟩
    · exact absurd (hfits hreaches) hnot
    · exact absurd hsucceeds (by simp [hfails])
    · exact absurd hrewritten (by simp [hfails])
    · rcases hnotOk with hnotOk | ⟨hreaches, _⟩
      · exact ⟨(h.saved saved hsaved).1 ▸ hslot, fun hok => absurd hok (by simp [hnotOk])⟩
      · exact absurd (hfits hreaches) hnot
  · -- the write fails: the buffer is replaced
    rw [heq]
    cases hkind : kind.retries with
    | false => exact ⟨hcounted, hcountedFor, rfl, nofun, nofun⟩
    | true =>
      simp only [if_true]
      refine ⟨⟨⟨hcounted.isolated.ownQueue, hcounted.isolated.ownHash,
        hcounted.isolated.ownReport⟩, ?_⟩,
        ⟨hfor.loaded, hfor.pending, hfor.lastHost, hfor.lastPort, hfor.active⟩, rfl, nofun,
        fun _ _ saved hsaved _ _ => ?_⟩
      · intro b hb
        simp only [saveRetry] at hb
        cases halloc : env.retryAlloc with
        | false => simp [halloc] at hb
        | true =>
          simp only [halloc, if_true, Option.some.injEq] at hb
          subst hb
          exact ⟨hactive, p, hfor.loaded, by simp only [builtTransmission, hfor.pending]⟩
      · simp only [saveRetry] at hsaved
        cases halloc : env.retryAlloc with
        | false => simp [halloc] at hsaved
        | true =>
          simp only [halloc, if_true, Option.some.injEq] at hsaved
          subst hsaved
          exact ⟨rfl, fun _ => Or.inl rfl⟩
  · -- no `OK`: the own message is written, the buffer is the old one
    rw [heq]
    have hrecorded : (s.counted.record (s.builtTransmission idx kind) link env.write
        false).RetryIsolated := hcounted.isolated.record nofun
    have hown : (s.counted.record (s.builtTransmission idx kind) link env.write false).OwnWritten :=
      s.counted.ownWritten_record link env.write false rfl
    refine ⟨⟨hrecorded, h.saved⟩,
      ⟨hfor.loaded, hfor.pending, hfor.lastHost, hfor.lastPort, hfor.active⟩, rfl, nofun,
      fun _ hretries saved hsaved hsucceeds hrewritten => ?_⟩
    rcases hcond saved hsaved hretries with ⟨_, hok⟩ | hfails | hfails | ⟨hslot, _⟩
    · exact absurd (hok hwritten) (by simp [haccepted])
    · exact absurd hsucceeds (by simp [hfails])
    · exact absurd hrewritten (by simp [hfails])
    · exact ⟨(h.saved saved hsaved).1 ▸ hslot, fun _ => Or.inr hown⟩
  · -- `OK`
    rw [heq]
    have hrecorded : (s.counted.record (s.builtTransmission idx kind) link env.write
        false).RetryIsolated := hcounted.isolated.record nofun
    have hown : (s.counted.record (s.builtTransmission idx kind) link env.write false).OwnWritten :=
      s.counted.ownWritten_record link env.write false rfl
    refine ⟨⟨hrecorded.acceptHash (s.builtTransmission idx kind) hactive _ _, h.saved⟩,
      ⟨hfor.loaded, hfor.pending, hfor.lastHost, hfor.lastPort, ?_⟩, rfl, fun _ => hown, nofun⟩
    exact (HandshakeArray.setPrevMsgHash_active _ _ _).trans hactive

/-- The retry over the connection that was made for the contact of the call. -/
theorem RetryInv.handshakeRetrySend {s : PeerTasks} (h : s.RetryInv) {idx : ℕ} {p : PeerQueue}
    {keyHash session : Bytes 32} {env : SendEnv} (hactive : s.handshakes.active = idx)
    (hlink : s.peer.link = some ⟨p.hostName, p.port, some keyHash, some session⟩)
    (hload : s.loadablePeer idx = some p)
    (hown : ∀ saved, s.retry = some saved → env.rewrite.written = true →
      saved.transmission.contact = idx ∧
        (env.rewrite.accepted = true →
          saved.transmission.call = s.reports.length ∨ s.OwnWritten)) :
    let result := s.handshakeRetrySend env
    result.1.RetryInv ∧ result.1.reports = s.reports ∧
      (result.2 = true → result.1.OwnWritten) := by
  have hresigned {saved : RetryBuffer} (hsaved : s.retry = some saved) :
      ∀ b, some (s.resigned saved) = some b → b.contactSlot = b.transmission.contact ∧
        ∃ p, s.loadablePeer b.transmission.contact = some p ∧
          b.transmission.queueId = p.queueIdBytes := by
    rintro b ⟨⟩
    exact h.saved saved hsaved
  have hrecorded {saved : RetryBuffer} (hsaved : s.retry = some saved)
      (hwritten : env.rewrite.written = true) {link : PeerLink} (hsome : s.peer.link = some link) :
      (s.record (s.resigned saved).transmission link env.rewrite true).RetryIsolated := by
    obtain ⟨_, q, hq, hqueueId⟩ := h.saved saved hsaved
    have hcontact := (hown saved hsaved hwritten).1
    rw [hcontact, hload, Option.some.injEq] at hq
    subst hq
    rw [hlink, Option.some.injEq] at hsome
    subst hsome
    refine h.isolated.record fun _ => ⟨p, ?_, rfl, rfl, hqueueId⟩
    exact (congrArg s.loadablePeer hcontact).trans hload
  rcases s.handshakeRetrySend_cases env with ⟨_, heq⟩ | ⟨saved, hsaved, _, heq⟩ |
    ⟨saved, link, hsaved, hwritten, hsome, _, heq⟩ |
    ⟨saved, link, hsaved, hwritten, hsome, haccepted, heq⟩
  · rw [heq]
    exact ⟨h, rfl, nofun⟩
  · rw [heq]
    exact ⟨⟨⟨h.isolated.ownQueue, h.isolated.ownHash, h.isolated.ownReport⟩, hresigned hsaved⟩,
      rfl, nofun⟩
  · rw [heq]
    have hblock := hrecorded hsaved hwritten hsome
    exact ⟨⟨⟨hblock.ownQueue, hblock.ownHash, hblock.ownReport⟩, hresigned hsaved⟩, rfl, nofun⟩
  · rw [heq]
    obtain ⟨hcontact, hwhose⟩ := hown saved hsaved hwritten
    have hblock := (hrecorded hsaved hwritten hsome).acceptHash
      (s.resigned saved).transmission (hactive.trans hcontact.symm) saved.prevMsgHash
      env.retryLands
    refine ⟨⟨⟨hblock.ownQueue, hblock.ownHash, hblock.ownReport⟩, nofun⟩, rfl, fun _ => ?_⟩
    rcases hwhose haccepted with hcall | ⟨b, hb, hcall⟩
    · exact ⟨_, List.mem_append_right _ (List.mem_singleton_self _), hcall⟩
    · exact ⟨b, List.mem_append_left _ hb, hcall⟩

/-- The retry after a failed send. -/
theorem RetryInv.retryAfterFailure {s : PeerTasks} (h : s.RetryInv) {idx : ℕ} {p : PeerQueue}
    (hfor : s.SendsFor idx p) {env : SendEnv} (hown : s.RetriesOwn idx p env) :
    let result := s.retryAfterFailure env
    result.1.RetryInv ∧ result.1.reports = s.reports ∧
      (result.2 = true → result.1.OwnWritten) := by
  rw [PeerTasks.retryAfterFailure]
  by_cases hsome : s.retry.isSome = true
  · rw [if_pos hsome]
    cases hmade : s.peer.forceReconnect env.reconnect with
    | mk made success =>
      cases success with
      | false => exact ⟨⟨⟨h.isolated.ownQueue, h.isolated.ownHash, h.isolated.ownReport⟩, h.saved⟩,
          rfl, nofun⟩
      | true =>
        have hsucceeds := congrArg Prod.snd hmade
        simp only [PeerState.forceReconnect] at hsucceeds
        obtain ⟨keyHash, _, _, hlink⟩ := PeerState.peerConnect_link _ hsucceeds
        rw [PeerState.peerConnect_snd, PeerState.peerDisconnect_pendingPeer, hfor.pending]
          at hsucceeds
        have hmadeLink : ∃ session, made.link =
            some ⟨p.hostName, p.port, some keyHash, some session⟩ := by
          have hfst := congrArg Prod.fst hmade
          simp only [PeerState.forceReconnect] at hfst
          rw [hfst, PeerState.peerDisconnect_lastHost, PeerState.peerDisconnect_lastPort,
            hfor.lastHost, hfor.lastPort] at hlink
          exact ⟨_, hlink⟩
        obtain ⟨session, hmadeLink⟩ := hmadeLink
        have hconnected : ({ s with peer := made } : PeerTasks).RetryInv :=
          ⟨⟨h.isolated.ownQueue, h.isolated.ownHash, h.isolated.ownReport⟩, h.saved⟩
        exact hconnected.handshakeRetrySend hfor.active hmadeLink hfor.loaded
          fun saved hsaved hwritten => hown saved hsaved hsucceeds hwritten
  · rw [if_neg hsome]
    exact ⟨h, rfl, nofun⟩

/-- What a call has prepared when it sends. -/
theorem ready_sendsFor (s : PeerTasks) {idx : ℕ} {p : PeerQueue} (hidx : idx < maxContacts)
    (hload : s.loadablePeer idx = some p) (env : SendEnv) :
    (s.ready idx p env).SendsFor idx p where
  loaded := hload
  pending := (PeerState.ensureConnected_pendingPeer _ _).trans (PeerState.prepare_pendingPeer _ _)
  lastHost := by
    have hlen : (s.peer.prepare p).lastHost.length ≤ 63 := by
      rw [PeerState.prepare_lastHost]
      exact p.hostName_length
    exact (PeerState.ensureConnected_lastHost _ hlen).trans (PeerState.prepare_lastHost _ _)
  lastPort := (PeerState.ensureConnected_lastPort _ _).trans (PeerState.prepare_lastPort _ _)
  active := HandshakeArray.setActive_active _ hidx _

/-- A call for a contact, up to its report. -/
theorem RetryInv.peerSendResult {s : PeerTasks} (h : s.RetryInv) (sha256 : List UInt8 → Bytes 32)
    {idx : ℕ} {kind : AgentSend} {env : SendEnv}
    (hcond : PeerStep.LeavesOlder s (.send idx kind env)) :
    let result := s.peerSendResult sha256 idx kind env
    result.1.RetryInv ∧ result.1.reports = s.reports ∧
      (result.2 = true → result.1.OwnWritten) := by
  rcases s.peerSendResult_cases sha256 idx kind env with ⟨-, heq⟩ | ⟨p, hidx, _, hload, hready⟩
  · rw [heq]
    exact ⟨h, rfl, nofun⟩
  · have hreadyInv : (s.ready idx p env).RetryInv :=
      ⟨⟨h.isolated.ownQueue, h.isolated.ownHash, h.isolated.ownReport⟩, h.saved⟩
    rcases hready with heq | ⟨_, hblock, heq⟩
    · rw [heq]
      exact ⟨hreadyInv, rfl, nofun⟩
    · have hfor := s.ready_sendsFor hidx hload env
      obtain ⟨hsent, hsentFor, hreports, hwritten, hretries⟩ :=
        hreadyInv.encryptAndSend hfor sha256 kind env
          fun saved hsaved hkind => hcond saved p hsaved hload hkind hblock
      rw [heq, sendOrRetry]
      cases hresult : (s.ready idx p env).encryptAndSend sha256 idx kind env with
      | mk sent success =>
        rw [hresult] at hsent hsentFor hreports hwritten hretries
        cases success with
        | true => exact ⟨hsent, hreports, fun _ => hwritten rfl⟩
        | false =>
          cases hkind : kind.retries with
          | false => exact ⟨hsent, hreports, nofun⟩
          | true =>
            obtain ⟨hinv, hsame, hown⟩ := hsent.retryAfterFailure hsentFor (hretries rfl hkind)
            exact ⟨hinv, hsame.trans hreports, hown⟩

/-- A call that meets the condition keeps the invariant. -/
theorem RetryInv.peerSend {s : PeerTasks} (h : s.RetryInv) (sha256 : List UInt8 → Bytes 32)
    {idx : ℕ} {kind : AgentSend} {env : SendEnv}
    (hcond : PeerStep.LeavesOlder s (.send idx kind env)) :
    (s.peerSend sha256 idx kind env).RetryInv := by
  obtain ⟨hinv, hreports, hown⟩ := h.peerSendResult sha256 hcond
  refine ⟨⟨hinv.isolated.ownQueue, hinv.isolated.ownHash, fun call r hr hsuccess => ?_⟩, hinv.saved⟩
  simp only [PeerTasks.peerSend] at hr
  by_cases hlast : call < (s.peerSendResult sha256 idx kind env).1.reports.length
  · rw [List.getElem?_append_left hlast] at hr
    exact hinv.isolated.ownReport call r hr hsuccess
  · rw [List.getElem?_append_right (by omega), List.getElem?_singleton] at hr
    by_cases hzero : call - (s.peerSendResult sha256 idx kind env).1.reports.length = 0
    · rw [if_pos hzero, Option.some.injEq] at hr
      subst hr
      obtain ⟨b, hb, hcall⟩ := hown hsuccess
      exact ⟨b, hb, by omega⟩
    · rw [if_neg hzero] at hr
      cases hr

/-- One step that meets the condition keeps the invariant. -/
theorem RetryInv.step {s : PeerTasks} (h : s.RetryInv) (sha256 : List UInt8 → Bytes 32)
    {a : PeerStep} (hcond : a.LeavesOlder s) : (s.step sha256 a).RetryInv := by
  have hframe (peer : PeerState) (handshakes : HandshakeArray) :
      ({ s with peer := peer, handshakes := handshakes } : PeerTasks).RetryInv :=
    ⟨⟨h.isolated.ownQueue, h.isolated.ownHash, h.isolated.ownReport⟩, h.saved⟩
  cases a with
  | connect host port outcome => exact hframe _ _
  | disconnect => exact hframe _ _
  | loadState idx => exact hframe _ _
  | parseInvitation p => exact hframe _ _
  | setActive idx lands => exact hframe _ _
  | send idx kind env => exact h.peerSend sha256 hcond
  | reboot connects =>
    exact ⟨⟨h.isolated.ownQueue, h.isolated.ownHash, h.isolated.ownReport⟩, nofun⟩

/-- A device that has sent nothing. -/
theorem retryInv_start (contactActive : ℕ → Bool) (storedPeer : ℕ → Option PeerQueue)
    (storedHandshake : ℕ → Option HandshakeEntry) (sessionStored sessionLoads : Bool) :
    (start contactActive storedPeer storedHandshake sessionStored sessionLoads).RetryInv :=
  ⟨⟨nofun, nofun, nofun⟩, nofun⟩

end PeerTasks

/-- The retry buffer stays with its contact in every run in which no call takes up what an
earlier one has left in it. -/
theorem retry_buffer_isolated (sha256 : List UInt8 → Bytes 32) (contactActive : ℕ → Bool)
    (storedPeer : ℕ → Option PeerQueue) (storedHandshake : ℕ → Option HandshakeEntry)
    (sessionStored sessionLoads : Bool) (labels : List PeerStep)
    (h : StepsMeet (PeerTasks.step sha256) (fun s a => a.LeavesOlder s)
      (PeerTasks.start contactActive storedPeer storedHandshake sessionStored sessionLoads) labels) :
    (runFrom (PeerTasks.step sha256)
      (PeerTasks.start contactActive storedPeer storedHandshake sessionStored sessionLoads)
      labels).RetryIsolated := by
  have hinv : (runFrom (PeerTasks.step sha256)
      (PeerTasks.start contactActive storedPeer storedHandshake sessionStored sessionLoads)
      labels).RetryInv :=
    h.invariant (fun s a hs hcond => hs.step sha256 hcond)
      (PeerTasks.retryInv_start contactActive storedPeer storedHandshake sessionStored sessionLoads)
  exact hinv.isolated

/-! ### Two contacts on two servers -/

/-- A peer queue on a server with a one-letter name. -/
def peerOn (name : UInt8) : PeerQueue :=
  { PeerQueue.zero with
    host := strncpy 63 [name]
    port := 5223
    queueId := strncpy 31 [name]
    queueIdLen := 1
    hasDh := 1
    valid := 1 }

/-- A hash for samples. -/
def toySha256 (message : List UInt8) : Bytes 32 :=
  Vector.ofFn fun i => message.foldl (fun a b => a * 31 + b) (UInt8.ofNat i.val)

/-- Contacts 1 and 2 on different servers. -/
def twoPeers : PeerTasks :=
  PeerTasks.start (fun i => i = 1 || i = 2)
    (fun i => if i = 1 then some (peerOn 97) else if i = 2 then some (peerOn 98) else none)
    (fun _ => none) true true

/-- A server hello from the server with this session id. -/
def helloFrom (session : UInt8) : ConnectOutcome := .hello (strncpy 31 [session]) (zeroBytes 32) true

/-- A call in which everything succeeds. -/
def smoothSend : SendEnv where
  connect := helloFrom 1
  blockAlloc := true
  encrypts := true
  write := ⟨true, true, true⟩
  retryAlloc := true
  reconnect := helloFrom 2
  rewrite := ⟨true, true, true⟩
  switchLands := true
  hashLands := true
  retryLands := true

/-- A call whose write fails; it reconnects and sends again. -/
def failedWrite : SendEnv := { smoothSend with write := ⟨false, false, false⟩ }

/-- The retry after a failed write, and a send to the other contact after it. -/
theorem retry_buffer_isolated_after_failed_write :
    (runFrom (PeerTasks.step toySha256) twoPeers
      [.send 1 (.chat [104]) failedWrite, .send 2 .hello smoothSend]).RetryIsolated := by
  have hcleared : (PeerTasks.step toySha256 twoPeers (.send 1 (.chat [104]) failedWrite)).retry =
      none := by
    decide
  refine retry_buffer_isolated toySha256 _ _ _ _ _ _ ⟨nofun, fun saved p hsaved => ?_, trivial⟩
  cases hcleared.symm.trans hsaved

/-- Contact 1's message cannot be written and the connection cannot be made again; then contact
2's message has no answer, and contact 1's goes out to contact 2's server and sets the hash of
contact 2. -/
theorem saved_message_sent_for_other_contact :
    ¬∀ (sha256 : List UInt8 → Bytes 32) (contactActive : ℕ → Bool)
      (storedPeer : ℕ → Option PeerQueue) (storedHandshake : ℕ → Option HandshakeEntry)
      (sessionStored sessionLoads : Bool) (labels : List PeerStep),
      (runFrom (PeerTasks.step sha256)
        (PeerTasks.start contactActive storedPeer storedHandshake sessionStored sessionLoads)
        labels).RetryIsolated := by
  intro h
  have hrun := h toySha256 (fun i => i = 1 || i = 2)
    (fun i => if i = 1 then some (peerOn 97) else if i = 2 then some (peerOn 98) else none)
    (fun _ => none) true true
    [.send 1 (.chat [104]) { failedWrite with reconnect := .noTls },
      .send 2 (.chat [105]) { smoothSend with write := ⟨true, false, false⟩ }]
  have hslots : (runFrom (PeerTasks.step toySha256) twoPeers
      [.send 1 (.chat [104]) { failedWrite with reconnect := .noTls },
        .send 2 (.chat [105]) { smoothSend with write := ⟨true, false, false⟩ }]).hashUpdates.all
      (fun u => u.slot = u.transmission.contact) = false := by
    decide
  have hall := List.all_eq_true.2 fun u hu => decide_eq_true (hrun.ownHash u hu)
  exact absurd (hall.symm.trans hslots) (by decide)

end SimpleGo
