import SimpleGo.Peer.RetryIsolation

/-!
# Messages at the contact's own server

Where the open connection goes is not kept. `peer_prepare_for_contact` takes it to be the host
and the port in `pending_peer`, which `peer_load_state` and a parsed invitation overwrite without
touching the connection, and a failed `peer_connect` leaves `connected` as it was.
-/

namespace SimpleGo

open Lib

/-- The connection goes to the server of a peer queue, whose certificate hash was checked when it
is known, and has this session id. -/
structure PeerLink.Serves (link : PeerLink) (p : PeerQueue) (sessionId : Bytes 32) : Prop where
  host : link.host = p.hostName
  port : link.port = p.port
  keyHash : p.keyHash ≠ zeroBytes 32 → link.keyHash = some p.keyHash
  sessionId : link.sessionId = some sessionId

/-- Every message was written over a connection to the server in its contact's stored peer queue,
and names the session of that connection. -/
def PeerTasks.SendsToOwnServers (s : PeerTasks) : Prop :=
  ∀ b ∈ s.wire, ∃ p, s.loadablePeer b.transmission.contact = some p ∧
    b.link.Serves p b.transmission.sessionId

/-- Two peer queues on one server with one key hash. -/
def PeerQueue.SameServer (p q : PeerQueue) : Prop :=
  q.hostName = p.hostName ∧ q.port = p.port ∧ q.keyHash = p.keyHash

instance (p q : PeerQueue) : Decidable (p.SameServer q) :=
  inferInstanceAs (Decidable (_ ∧ _ ∧ _))

/-- The device, with whether `pending_peer` may describe another server than the one the open
connection was made to. -/
structure ServerRun where
  tasks : PeerTasks
  diverted : Bool

/-- It does when a peer queue of another server is put into `pending_peer` under an open
connection, or when a connection attempt goes elsewhere or stops between TLS and the server hello.
A connection to the server in `pending_peer` ends this, and so does closing the connection. -/
def PeerStep.diverts (s : ServerRun) : PeerStep → Bool
  | .connect host port outcome =>
    host ≠ s.tasks.peer.pendingPeer.hostName || port ≠ s.tasks.peer.pendingPeer.port ||
      s.tasks.peer.connected && outcome = .noHello
  | .loadState idx => s.diverted || s.tasks.peer.connected &&
      (s.tasks.loadablePeer idx).any fun p => !s.tasks.peer.pendingPeer.SameServer p
  | .parseInvitation p =>
    s.diverted || s.tasks.peer.connected && !s.tasks.peer.pendingPeer.SameServer p
  | .setActive _ _ => s.diverted
  | .send idx _ _ => s.diverted && !s.tasks.Prepares idx
  | .disconnect | .reboot _ => false

/-- One step. -/
def ServerRun.step (sha256 : List UInt8 → Bytes 32) (s : ServerRun) (a : PeerStep) : ServerRun :=
  ⟨s.tasks.step sha256 a, a.diverts s⟩

/-- A call that keeps the connection does not fall in such a time and is for a contact with no
other key hash; and a call does not take up another contact's transmission. -/
def PeerStep.KeepsServer (s : ServerRun) : PeerStep → Prop
  | .send idx kind env => ∀ p, s.tasks.loadablePeer idx = some p →
    (s.tasks.peer.connected = true → p.hostName = s.tasks.peer.pendingPeer.hostName →
      p.port = s.tasks.peer.pendingPeer.port → s.diverted = false ∧
        (p.keyHash = zeroBytes 32 ∨ p.keyHash = s.tasks.peer.pendingPeer.keyHash)) ∧
    ∀ saved, s.tasks.retry = some saved → kind.retries = true → env.blockAlloc = true →
      (env.ReachesWrite kind ∧ (env.write.written = true → env.write.accepted = true)) ∨
      env.reconnect.succeeds p = false ∨ env.rewrite.written = false ∨ saved.contactSlot = idx
  | _ => True

namespace PeerState

variable {ps : PeerState}

/-- An open connection serves the peer queue that is pending. -/
def Serving (ps : PeerState) : Prop :=
  ps.connected = true → ∀ link, ps.link = some link → link.Serves ps.pendingPeer ps.sessionId

/-- Without a connection nothing is required. -/
theorem serving_of_not_connected (h : ps.connected = false) : ps.Serving :=
  fun hconnected => absurd hconnected (by simp [h])

/-- A key hash that passes the check is the known one. -/
theorem keyHash_of_ok {p : PeerQueue} {keyHash : Bytes 32} (h : p.keyHashOk keyHash = true)
    (hknown : p.keyHash ≠ zeroBytes 32) : some keyHash = some p.keyHash := by
  simp only [PeerQueue.keyHashOk, Bool.or_eq_true, decide_eq_true_eq] at h
  rcases h with h | h
  · exact absurd h hknown
  · rw [h]

/-- A connection attempt to the pending peer queue's server. -/
theorem serving_peerConnect {host : List UInt8} {port : Int} {outcome : ConnectOutcome}
    (hhost : host = ps.pendingPeer.hostName) (hport : port = ps.pendingPeer.port)
    (hhello : ps.connected = true → outcome ≠ .noHello) :
    (ps.peerConnect host port outcome).1.Serving := by
  intro hconnected link hlink
  cases outcome with
  | noTls => cases hlink
  | noHello => exact absurd rfl (hhello hconnected)
  | hello sessionId keyHash written =>
    simp only [peerConnect] at hlink ⊢
    by_cases hok : ps.pendingPeer.keyHashOk keyHash = true
    · simp only [hok, if_true, Option.some.injEq] at hlink ⊢
      subst hlink
      exact ⟨hhost, hport, fun hknown => keyHash_of_ok hok hknown, rfl⟩
    · simp only [hok] at hlink
      cases hlink

/-- Closing the connection. -/
theorem serving_peerDisconnect (ps : PeerState) : ps.peerDisconnect.Serving :=
  serving_of_not_connected ps.peerDisconnect_connected

/-- A peer queue of the same server is put in place. -/
theorem Serving.replace (h : ps.Serving) {p : PeerQueue} {lastHost : List UInt8} {lastPort : Int}
    (hsame : ps.connected = true → ps.pendingPeer.SameServer p) :
    ({ ps with pendingPeer := p, lastHost := lastHost, lastPort := lastPort } :
      PeerState).Serving := by
  intro hconnected link hlink
  obtain ⟨hhost, hport, hkey, hsession⟩ := h hconnected link hlink
  obtain ⟨hsameHost, hsamePort, hsameKey⟩ := hsame hconnected
  exact ⟨hhost.trans hsameHost.symm, hport.trans hsamePort.symm,
    fun hknown => by rw [hsameKey] at hknown ⊢; exact hkey hknown, hsession⟩

/-- The connection a call keeps, or closes. -/
theorem serving_prepare {p : PeerQueue}
    (hkept : ps.connected = true → p.hostName = ps.pendingPeer.hostName →
      p.port = ps.pendingPeer.port → ps.Serving ∧
        (p.keyHash = zeroBytes 32 ∨ p.keyHash = ps.pendingPeer.keyHash)) :
    (ps.prepare p).Serving := by
  rw [PeerState.prepare]
  split
  · exact serving_peerDisconnect _
  · rename_i hopen
    intro hconnected link hlink
    have hsame : ps.pendingPeer.hostName = cString p.host ∧ ps.pendingPeer.port = p.port := by
      have hconnected' : ps.connected = true := hconnected
      simpa [hconnected'] using hopen
    have hhostName : p.hostName = ps.pendingPeer.hostName := by
      rw [PeerQueue.hostName, ← hsame.1]
      exact List.take_of_length_le ps.pendingPeer.hostName_length
    obtain ⟨hserving, hkey⟩ := hkept hconnected hhostName hsame.2.symm
    obtain ⟨hhost, hport, hchecked, hsession⟩ := hserving hconnected link hlink
    refine ⟨hhost.trans hhostName.symm, hport.trans hsame.2, fun hknown => ?_, hsession⟩
    have hchecked' : p.keyHash ≠ zeroBytes 32 → link.keyHash = some p.keyHash := by
      rcases hkey with hzero | hequal
      · exact fun hne => absurd hzero hne
      · rw [hequal]
        exact hchecked
    exact hchecked' hknown

/-- The connection a call sends over. -/
theorem Serving.ensureConnected (h : ps.Serving) (outcome : ConnectOutcome)
    (hhost : ps.lastHost = ps.pendingPeer.hostName) (hport : ps.lastPort = ps.pendingPeer.port) :
    (ps.ensureConnected outcome).1.Serving ∧
      ((ps.ensureConnected outcome).2 = true →
        (ps.ensureConnected outcome).1.connected = true) := by
  rw [PeerState.ensureConnected]
  split
  · rename_i hconnected
    exact ⟨h, fun _ => hconnected⟩
  · rename_i hnot
    split
    · exact ⟨h, fun hmade => absurd hmade Bool.false_ne_true⟩
    · refine ⟨serving_peerConnect hhost hport fun hconnected => absurd hconnected hnot,
        fun hmade => ?_⟩
      obtain ⟨_, _, hconnected, _⟩ := PeerState.peerConnect_link _ hmade
      exact hconnected

/-- The connection of a retry. -/
theorem serving_forceReconnect (ps : PeerState) (outcome : ConnectOutcome)
    (hhost : ps.lastHost = ps.pendingPeer.hostName) (hport : ps.lastPort = ps.pendingPeer.port) :
    (ps.forceReconnect outcome).1.Serving := by
  refine serving_peerConnect ?_ ?_ fun hconnected => absurd hconnected (by simp)
  · rw [peerDisconnect_lastHost, peerDisconnect_pendingPeer, hhost]
  · rw [peerDisconnect_lastPort, peerDisconnect_pendingPeer, hport]

end PeerState

namespace PeerTasks

variable {s : PeerTasks}

/-- What holds between the parts of a call. -/
structure ServerInv (s : PeerTasks) : Prop where
  sent : s.SendsToOwnServers
  serving : s.peer.Serving
  saved : ∀ b, s.retry = some b → b.contactSlot = b.transmission.contact

/-- A block over a connection that serves its contact's peer queue. -/
theorem SendsToOwnServers.record (h : s.SendsToOwnServers) (tx : PeerTransmission)
    {link : PeerLink} {p : PeerQueue} (hload : s.loadablePeer tx.contact = some p)
    (hserves : link.Serves p tx.sessionId) (outcome : WriteOutcome) (isRetry : Bool) :
    (s.record tx link outcome isRetry).SendsToOwnServers := by
  intro b hb
  rcases List.mem_append.1 hb with hb | hb
  · exact h b hb
  · obtain rfl := List.mem_singleton.1 hb
    exact ⟨p, hload, hserves⟩

/-- The own message of a call, and what the retry finds afterwards. -/
theorem ServerInv.encryptAndSend (h : s.ServerInv) {idx : ℕ} {p : PeerQueue}
    (hfor : s.SendsFor idx p) (hconnected : s.peer.connected = true)
    (sha256 : List UInt8 → Bytes 32) (kind : AgentSend) (env : SendEnv)
    (hcond : ∀ saved, s.retry = some saved → kind.retries = true →
      (env.ReachesWrite kind ∧ (env.write.written = true → env.write.accepted = true)) ∨
      env.reconnect.succeeds p = false ∨ env.rewrite.written = false ∨ saved.contactSlot = idx) :
    let result := s.encryptAndSend sha256 idx kind env
    result.1.ServerInv ∧ result.1.SendsFor idx p ∧
      (result.2 = false → kind.retries = true → ∀ saved, result.1.retry = some saved →
        env.reconnect.succeeds p = true → env.rewrite.written = true →
        saved.transmission.contact = idx) := by
  have hcounted : s.counted.ServerInv := ⟨h.sent, h.serving, h.saved⟩
  have hcountedFor : s.counted.SendsFor idx p :=
    ⟨hfor.loaded, hfor.pending, hfor.lastHost, hfor.lastPort, hfor.active⟩
  have holder (hnot : ¬(env.ReachesWrite kind ∧
      (env.write.written = true → env.write.accepted = true))) (hretries : kind.retries = true)
      (saved : RetryBuffer) (hsaved : s.retry = some saved)
      (hsucceeds : env.reconnect.succeeds p = true) (hrewritten : env.rewrite.written = true) :
      saved.transmission.contact = idx := by
    rcases hcond saved hsaved hretries with hsettles | hfails | hfails | hslot
    · exact absurd hsettles hnot
    · exact absurd hsucceeds (by simp [hfails])
    · exact absurd hrewritten (by simp [hfails])
    · exact (h.saved saved hsaved).symm.trans hslot
  have hsent {link : PeerLink} (hlink : s.peer.link = some link) :
      (s.counted.record (s.builtTransmission idx kind) link env.write false).SendsToOwnServers :=
    hcounted.sent.record (s.builtTransmission idx kind) hfor.loaded
      (hfor.pending ▸ h.serving hconnected link hlink) _ _
  rcases s.encryptAndSend_cases sha256 idx kind env with ⟨hnot, heq⟩ | ⟨_, heq⟩ |
    ⟨link, hwritten, hlink, haccepted, heq⟩ | ⟨link, _, hlink, _, heq⟩
  · rw [heq]
    exact ⟨hcounted, hcountedFor, fun _ hretries => holder
      (fun hsettles => hnot ⟨AgentSend.fits_of_le hsettles.1.1 _ _, hsettles.1.2⟩) hretries⟩
  · rw [heq]
    cases hkind : kind.retries with
    | false =>
      exact ⟨hcounted, hcountedFor, fun _ hretries => absurd hretries Bool.false_ne_true⟩
    | true =>
      simp only [if_true]
      have hbuffer (saved : RetryBuffer) (hsaved : (s.counted.saveRetry
          (s.builtTransmission idx kind) (sha256 (s.handshakes.builtMessage kind))
          env.retryAlloc).retry = some saved) :
          saved.contactSlot = idx ∧ saved.transmission.contact = idx := by
        simp only [saveRetry] at hsaved
        cases halloc : env.retryAlloc with
        | false => simp [halloc] at hsaved
        | true =>
          simp only [halloc, if_true, Option.some.injEq] at hsaved
          subst hsaved
          exact ⟨hfor.active, rfl⟩
      exact ⟨⟨h.sent, h.serving, fun b hb => (hbuffer b hb).1.trans (hbuffer b hb).2.symm⟩,
        ⟨hfor.loaded, hfor.pending, hfor.lastHost, hfor.lastPort, hfor.active⟩,
        fun _ _ saved hsaved _ _ => (hbuffer saved hsaved).2⟩
  · rw [heq]
    exact ⟨⟨hsent hlink, h.serving, h.saved⟩,
      ⟨hfor.loaded, hfor.pending, hfor.lastHost, hfor.lastPort, hfor.active⟩,
      fun _ hretries => holder
        (fun hsettles => absurd (hsettles.2 hwritten) (by simp [haccepted])) hretries⟩
  · rw [heq]
    exact ⟨⟨hsent hlink, h.serving, h.saved⟩,
      ⟨hfor.loaded, hfor.pending, hfor.lastHost, hfor.lastPort,
        (HandshakeArray.setPrevMsgHash_active _ _ _).trans hfor.active⟩,
      fun hfailed => absurd hfailed.symm Bool.false_ne_true⟩

/-- The retry after a failed send. -/
theorem ServerInv.retryAfterFailure (h : s.ServerInv) {idx : ℕ} {p : PeerQueue}
    (hfor : s.SendsFor idx p) {env : SendEnv}
    (hown : ∀ saved, s.retry = some saved → env.reconnect.succeeds p = true →
      env.rewrite.written = true → saved.transmission.contact = idx) :
    (s.retryAfterFailure env).1.ServerInv := by
  rw [PeerTasks.retryAfterFailure]
  by_cases hsome : s.retry.isSome = true
  · rw [if_pos hsome]
    have hserving := s.peer.serving_forceReconnect env.reconnect
      (hfor.lastHost.trans (by rw [hfor.pending])) (hfor.lastPort.trans (by rw [hfor.pending]))
    cases hmade : s.peer.forceReconnect env.reconnect with
    | mk made success =>
      rw [hmade] at hserving
      have hconnected : ({ s with peer := made } : PeerTasks).ServerInv :=
        ⟨h.sent, hserving, h.saved⟩
      cases success with
      | false => exact hconnected
      | true =>
        have hsucceeds := congrArg Prod.snd hmade
        have hup : made.connected = true ∧ made.pendingPeer = p := by
          obtain ⟨_, _, hup, _⟩ := PeerState.peerConnect_link _ hsucceeds
          have hfst := congrArg Prod.fst hmade
          simp only [PeerState.forceReconnect] at hfst hup
          rw [hfst] at hup
          refine ⟨hup, ?_⟩
          rw [← hfst, PeerState.peerConnect_pendingPeer, PeerState.peerDisconnect_pendingPeer,
            hfor.pending]
        simp only [PeerState.forceReconnect, PeerState.peerConnect_snd,
          PeerState.peerDisconnect_pendingPeer, hfor.pending] at hsucceeds
        have hsent {saved : RetryBuffer} {link : PeerLink} (hretry : s.retry = some saved)
            (hwritten : env.rewrite.written = true) (hlink : made.link = some link) :
            (({ s with peer := made } : PeerTasks).record
              (({ s with peer := made } : PeerTasks).resigned saved).transmission link env.rewrite
              true).SendsToOwnServers := by
          have hcontact := hown saved hretry hsucceeds hwritten
          have hload : ({ s with peer := made } : PeerTasks).loadablePeer
              saved.transmission.contact = some p := by
            rw [hcontact]
            exact hfor.loaded
          exact hconnected.sent.record
            (({ s with peer := made } : PeerTasks).resigned saved).transmission hload
            (hup.2 ▸ hserving hup.1 link hlink) _ _
        have hsaved {saved : RetryBuffer} (hretry : s.retry = some saved) :
            ∀ b, some (({ s with peer := made } : PeerTasks).resigned saved) = some b →
              b.contactSlot = b.transmission.contact := by
          rintro b ⟨⟩
          exact h.saved saved hretry
        rcases ({ s with peer := made } : PeerTasks).handshakeRetrySend_cases env with
          ⟨_, heq⟩ | ⟨saved, hretry, _, heq⟩ | ⟨saved, link, hretry, hwritten, hlink, _, heq⟩ |
          ⟨saved, link, hretry, hwritten, hlink, _, heq⟩
        · simp only [heq]
          exact hconnected
        · simp only [heq]
          exact ⟨h.sent, hserving, hsaved hretry⟩
        · simp only [heq]
          exact ⟨hsent hretry hwritten hlink, hserving, hsaved hretry⟩
        · simp only [heq]
          exact ⟨hsent hretry hwritten hlink, hserving,
            fun _ hnone => absurd hnone.symm (Option.some_ne_none _)⟩
  · rw [if_neg hsome]
    exact h

end PeerTasks

namespace ServerRun

variable {s : ServerRun}

/-- The invariant: the open connection serves the pending peer queue unless it was diverted. -/
structure Inv (s : ServerRun) : Prop where
  sent : s.tasks.SendsToOwnServers
  serving : s.diverted = false → s.tasks.peer.Serving
  saved : ∀ b, s.tasks.retry = some b → b.contactSlot = b.transmission.contact

/-- A call for a contact, up to its report: it stops before it prepares the connection, or
prepares one that serves its contact. -/
theorem Inv.peerSendResult (h : s.Inv) (sha256 : List UInt8 → Bytes 32) {idx : ℕ}
    {kind : AgentSend} {env : SendEnv} (hcond : PeerStep.KeepsServer s (.send idx kind env)) :
    s.tasks.Prepares idx = false ∧ (s.tasks.peerSendResult sha256 idx kind env).1 = s.tasks ∨
      (s.tasks.peerSendResult sha256 idx kind env).1.ServerInv := by
  rcases s.tasks.peerSendResult_cases sha256 idx kind env with ⟨hnot, heq⟩ |
    ⟨p, hidx, _, hload, hready⟩
  · exact Or.inl ⟨hnot, by rw [heq]⟩
  · right
    obtain ⟨hkey, holder⟩ := hcond p hload
    have hpending : (s.tasks.peer.prepare p).pendingPeer = p := PeerState.prepare_pendingPeer _ _
    have hprepared : (s.tasks.peer.prepare p).Serving :=
      PeerState.serving_prepare fun hconnected hhost hport =>
        (hkey hconnected hhost hport).imp_left h.serving
    obtain ⟨hserving, hup⟩ := hprepared.ensureConnected env.connect
      ((PeerState.prepare_lastHost _ _).trans (by rw [hpending]))
      ((PeerState.prepare_lastPort _ _).trans (by rw [hpending]))
    have hreadyInv : (s.tasks.ready idx p env).ServerInv := ⟨h.sent, hserving, h.saved⟩
    rcases hready with heq | ⟨hmade, hblock, heq⟩
    · rw [heq]
      exact hreadyInv
    · obtain ⟨hsent, hsentFor, hretries⟩ :=
        hreadyInv.encryptAndSend (s.tasks.ready_sendsFor hidx hload env) (hup hmade) sha256 kind env
          fun saved hsaved hkind => holder saved hsaved hkind hblock
      rw [heq, PeerTasks.sendOrRetry]
      cases hresult : (s.tasks.ready idx p env).encryptAndSend sha256 idx kind env with
      | mk sent success =>
        rw [hresult] at hsent hsentFor hretries
        cases success with
        | true => exact hsent
        | false =>
          cases hkind : kind.retries with
          | false => exact hsent
          | true => exact hsent.retryAfterFailure hsentFor (hretries rfl hkind)

/-- One step that meets the condition keeps the invariant. -/
theorem Inv.step (h : s.Inv) (sha256 : List UInt8 → Bytes 32) {a : PeerStep}
    (hcond : a.KeepsServer s) : (s.step sha256 a).Inv := by
  cases a with
  | connect host port outcome =>
    refine ⟨h.sent, fun hpaired => ?_, h.saved⟩
    simp only [ServerRun.step, PeerStep.diverts, Bool.or_eq_false_iff, Bool.and_eq_false_imp,
      decide_eq_false_iff_not, not_not] at hpaired
    exact PeerState.serving_peerConnect hpaired.1.1 hpaired.1.2 hpaired.2
  | disconnect => exact ⟨h.sent, fun _ => s.tasks.peer.serving_peerDisconnect, h.saved⟩
  | loadState idx =>
    refine ⟨h.sent, fun hpaired => ?_, h.saved⟩
    simp only [ServerRun.step, PeerStep.diverts, Bool.or_eq_false_iff] at hpaired
    simp only [ServerRun.step, PeerTasks.step, PeerTasks.peerLoadState]
    cases hload : s.tasks.loadablePeer idx with
    | none => exact h.serving hpaired.1
    | some p =>
      refine (h.serving hpaired.1).replace fun hconnected => ?_
      simpa [hload, hconnected] using hpaired.2
  | parseInvitation p =>
    refine ⟨h.sent, fun hpaired => ?_, h.saved⟩
    simp only [ServerRun.step, PeerStep.diverts, Bool.or_eq_false_iff] at hpaired
    refine (h.serving hpaired.1).replace fun hconnected => ?_
    simpa [hconnected] using hpaired.2
  | setActive idx lands => exact ⟨h.sent, h.serving, h.saved⟩
  | send idx kind env =>
    rcases h.peerSendResult sha256 hcond with ⟨hnot, heq⟩ | hresult
    · have hsent := h.sent
      have hsaved := h.saved
      rw [← heq] at hsent hsaved
      refine ⟨hsent, fun hpaired => ?_, hsaved⟩
      have hserving : s.tasks.peer.Serving :=
        h.serving (by simpa [ServerRun.step, PeerStep.diverts, hnot] using hpaired)
      rwa [← heq] at hserving
    · exact ⟨hresult.sent, fun _ => hresult.serving, hresult.saved⟩
  | reboot connects =>
    refine ⟨h.sent, fun _ => PeerState.serving_of_not_connected ?_, nofun⟩
    simp only [ServerRun.step, PeerTasks.step, PeerTasks.reboot]
    cases s.tasks.sessionStored <;> cases s.tasks.loadablePeer 0 <;> rfl

/-- The device of a run is that of the plain steps. -/
theorem tasks_runFrom (sha256 : List UInt8 → Bytes 32) (s : ServerRun) (labels : List PeerStep) :
    (runFrom (ServerRun.step sha256) s labels).tasks =
      runFrom (PeerTasks.step sha256) s.tasks labels := by
  induction labels generalizing s with
  | nil => rfl
  | cons a labels ih => exact ih (s.step sha256 a)

end ServerRun

/-- Messages go to their contacts' own servers in every run in which no call keeps a connection
while `pending_peer` may describe another one. -/
theorem sends_to_own_servers (sha256 : List UInt8 → Bytes 32) (contactActive : ℕ → Bool)
    (storedPeer : ℕ → Option PeerQueue) (storedHandshake : ℕ → Option HandshakeEntry)
    (sessionStored sessionLoads : Bool) (labels : List PeerStep)
    (h : StepsMeet (ServerRun.step sha256) (fun s a => a.KeepsServer s)
      ⟨.start contactActive storedPeer storedHandshake sessionStored sessionLoads, false⟩ labels) :
    (runFrom (PeerTasks.step sha256)
      (PeerTasks.start contactActive storedPeer storedHandshake sessionStored sessionLoads)
      labels).SendsToOwnServers := by
  have hinv := h.invariant (fun s a hs hcond => ServerRun.Inv.step hs sha256 hcond)
    ⟨nofun, fun _ => PeerState.serving_of_not_connected rfl, nofun⟩
  rw [← ServerRun.tasks_runFrom sha256 ⟨_, false⟩]
  exact hinv.sent

/-- A second message over the connection made for the first. -/
theorem sends_to_own_servers_on_kept_connection :
    (runFrom (PeerTasks.step toySha256) twoPeers
      [.send 1 (.chat [104]) smoothSend, .send 1 .hello smoothSend]).SendsToOwnServers := by
  have hretry : (PeerTasks.step toySha256 twoPeers (.send 1 (.chat [104]) smoothSend)).retry =
      none := by
    decide
  have hload : (PeerTasks.step toySha256 twoPeers
      (.send 1 (.chat [104]) smoothSend)).loadablePeer 1 = some (peerOn 97) := by
    decide
  refine sends_to_own_servers toySha256 _ _ _ _ _ _
    ⟨fun p _ => ⟨nofun, nofun⟩, fun p hp => ⟨fun _ _ _ => ⟨rfl, Or.inl ?_⟩,
      fun saved hsaved => ?_⟩, trivial⟩
  · obtain rfl := Option.some.inj (hload.symm.trans hp)
    rfl
  · cases hretry.symm.trans hsaved

/-- With a connection to contact 1's server open, contact 2's peer queue is loaded before its
message is sent, as `app_rotation_step` does. -/
theorem sent_to_another_server :
    ¬∀ (sha256 : List UInt8 → Bytes 32) (contactActive : ℕ → Bool)
      (storedPeer : ℕ → Option PeerQueue) (storedHandshake : ℕ → Option HandshakeEntry)
      (sessionStored sessionLoads : Bool) (labels : List PeerStep),
      (runFrom (PeerTasks.step sha256)
        (PeerTasks.start contactActive storedPeer storedHandshake sessionStored sessionLoads)
        labels).SendsToOwnServers := by
  intro h
  have hrun := h toySha256 (fun i => i = 1 || i = 2)
    (fun i => if i = 1 then some (peerOn 97) else if i = 2 then some (peerOn 98) else none)
    (fun _ => none) true true
    [.send 1 (.chat [104]) smoothSend, .loadState 2, .send 2 (.raw [81, 65]) smoothSend]
  have hwire : (runFrom (PeerTasks.step toySha256) twoPeers
      [.send 1 (.chat [104]) smoothSend, .loadState 2,
        .send 2 (.raw [81, 65]) smoothSend]).wire.any
      (fun b => b.transmission.contact = 2 ∧ b.link.host = [97]) = true := by
    decide
  have hload : (runFrom (PeerTasks.step toySha256) twoPeers
      [.send 1 (.chat [104]) smoothSend, .loadState 2,
        .send 2 (.raw [81, 65]) smoothSend]).loadablePeer 2 = some (peerOn 98) := by
    decide
  have hname : (peerOn 98).hostName = [98] := by decide
  obtain ⟨b, hb, hfound⟩ := List.any_eq_true.1 hwire
  obtain ⟨hcontact, hhost⟩ := of_decide_eq_true hfound
  obtain ⟨p, hp, hserves⟩ := hrun b hb
  rw [hcontact] at hp
  obtain rfl := Option.some.inj (hload.symm.trans hp)
  have hwrong := hhost.symm.trans (hserves.host.trans hname)
  exact absurd hwrong (by decide)

end SimpleGo
