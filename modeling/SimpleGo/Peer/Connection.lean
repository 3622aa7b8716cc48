import SimpleGo.Contacts.Records
import SimpleGo.Lib.Runs
import SimpleGo.Lib.Strings
import SimpleGo.Peer.AgentMessage
import SimpleGo.Ratchet.State

/-!
# The connection to the peers' servers

All contacts share one TLS connection, one peer queue in RAM, one retry buffer and one active
handshake entry. A send loads the peer queue of its contact, keeps the connection or makes a new
one, and numbers and writes the message. What the network and the allocator do is input. The
connection itself and the lists of what was written, which hashes were set and what was reported
are recorded beside the source's variables.
-/

namespace SimpleGo

open Lib

/-- What is behind `peer_state.ssl`: where it goes, and the certificate hash and the session id
of the server hello that came over it. -/
structure PeerLink where
  host : List UInt8
  port : Int
  keyHash : Option (Bytes 32)
  sessionId : Option (Bytes 32)
  deriving DecidableEq

/-- A signed SEND. The message in it is encrypted; the contact and the number of the call it was
built by are recorded with it. -/
structure PeerTransmission where
  sessionId : Bytes 32
  queueId : List UInt8
  message : List UInt8
  contact : ℕ
  call : ℕ
  deriving DecidableEq

/-- `s_retry`, when it is pending. -/
structure RetryBuffer where
  transmission : PeerTransmission
  prevMsgHash : Bytes 32
  contactSlot : ℕ
  deriving DecidableEq

/-- How far `peer_connect` comes: no TLS connection; one over which no server hello is taken; a
server hello, and whether the client hello can be written. -/
inductive ConnectOutcome where
  | noTls
  | noHello
  | hello (sessionId keyHash : Bytes 32) (written : Bool)
  deriving DecidableEq

/-- What becomes of a block that is written: whether the write succeeds, whether the message
reaches the server, and whether an answer with `OK` comes. -/
structure WriteOutcome where
  written : Bool
  reached : Bool
  accepted : Bool
  deriving DecidableEq

/-- A block that was written. -/
structure SentBlock where
  transmission : PeerTransmission
  link : PeerLink
  isRetry : Bool
  reached : Bool
  accepted : Bool
  deriving DecidableEq

/-- A handshake entry whose hash was set after this transmission. -/
structure HashUpdate where
  slot : ℕ
  transmission : PeerTransmission
  deriving DecidableEq

/-- What a `peer_send_*` call returned. -/
structure SendReport where
  contact : ℕ
  success : Bool
  deriving DecidableEq

/-- The host name of a peer queue. -/
def PeerQueue.hostName (p : PeerQueue) : List UInt8 := (cString p.host).take 63

/-- The queue id of a peer queue. -/
def PeerQueue.queueIdBytes (p : PeerQueue) : List UInt8 := p.queueId.toList.take p.queueIdLen.toNat

/-- The record `peer_load_state` accepts. -/
def PeerQueue.acceptable (p : PeerQueue) : Bool :=
  p.valid ≠ 0 && p.hostStart ≠ 0 && p.port ≠ 0 && 0 < p.queueIdLen && p.queueIdLen ≤ 32

/-- The key hash check of `peer_connect`: a hash that is zero is not known. -/
def PeerQueue.keyHashOk (p : PeerQueue) (keyHash : Bytes 32) : Bool :=
  p.keyHash = zeroBytes 32 || keyHash = p.keyHash

/-- Whether `peer_connect` succeeds with this peer queue in `pending_peer`. -/
def ConnectOutcome.succeeds (p : PeerQueue) : ConnectOutcome → Bool
  | hello _ keyHash written => p.keyHashOk keyHash && written
  | _ => false

/-- `pending_peer` and `peer_state`, with the connection. -/
structure PeerState where
  pendingPeer : PeerQueue
  connected : Bool
  initialized : Bool
  lastHost : List UInt8
  lastPort : Int
  sessionId : Bytes 32
  link : Option PeerLink

/-- `handshake_array`, `active_handshake_idx`, and the entries under `hand_XX`. -/
structure HandshakeArray where
  entries : ℕ → HandshakeEntry
  active : ℕ
  stored : ℕ → Option HandshakeEntry

/-- The sending side of the device, with what NVS holds for it. -/
structure PeerTasks where
  contactActive : ℕ → Bool
  /-- The slots with an active record under `cnt_XX`. -/
  storedContact : ℕ → Bool
  /-- `rat_00` and `queue_our` are there, and can be loaded. -/
  sessionStored : Bool
  sessionLoads : Bool
  /-- The records under `peer_XX`. -/
  storedPeer : ℕ → Option PeerQueue
  peer : PeerState
  handshakes : HandshakeArray
  retry : Option RetryBuffer
  wire : List SentBlock
  hashUpdates : List HashUpdate
  reports : List SendReport

/-- What decides how a `peer_send_*` call goes: the connection made when there is none, the
allocation of the block, the encryption, the write, the copy into the retry buffer, the second
connection, the write over it, and which of the saves land. -/
structure SendEnv where
  connect : ConnectOutcome
  blockAlloc : Bool
  encrypts : Bool
  write : WriteOutcome
  retryAlloc : Bool
  reconnect : ConnectOutcome
  rewrite : WriteOutcome
  switchLands : Bool
  hashLands : Bool
  retryLands : Bool

/-! ### The connection -/

namespace PeerState

variable (ps : PeerState)

/-- The variables after a reset. -/
def initial : PeerState where
  pendingPeer := .zero
  connected := false
  initialized := false
  lastHost := []
  lastPort := 0
  sessionId := zeroBytes 32
  link := none

/-- `peer_connect`. A context that is set up again has lost its connection; `connected` is left
as it was when the attempt fails. -/
def peerConnect (host : List UInt8) (port : Int) (outcome : ConnectOutcome) : PeerState × Bool :=
  let begun := { ps with
    lastHost := host.take 63
    lastPort := port
    initialized := true
    link := none }
  match outcome with
  | .noTls => (begun, false)
  | .noHello => ({ begun with link := some ⟨host, port, none, none⟩ }, false)
  | .hello sessionId keyHash written =>
    let greeted := { begun with sessionId := sessionId }
    if ps.pendingPeer.keyHashOk keyHash then
      ({ greeted with
        link := some { host, port, keyHash := some keyHash, sessionId := some sessionId }
        connected := written || ps.connected }, written)
    else (greeted, false)

/-- `peer_disconnect`. -/
def peerDisconnect : PeerState :=
  if ps.connected || ps.initialized then
    { ps with connected := false, initialized := false, link := none }
  else ps

/-- What `peer_load_state` does with a record it accepts. -/
def acceptPeer (p : PeerQueue) : PeerState :=
  { ps with pendingPeer := p, lastHost := p.hostName, lastPort := p.port }

/-- What `peer_prepare_for_contact` does here: a connection to another server is closed. -/
def prepare (p : PeerQueue) : PeerState :=
  let loaded := ps.acceptPeer p
  if ps.connected && (ps.pendingPeer.hostName ≠ cString p.host || ps.pendingPeer.port ≠ p.port) then
    loaded.peerDisconnect
  else loaded

/-- The reconnect of the `peer_send_*` functions, when there is no connection. -/
def ensureConnected (outcome : ConnectOutcome) : PeerState × Bool :=
  if ps.connected then (ps, true)
  else if ps.lastHost = [] ∨ ps.lastPort = 0 then (ps, false)
  else ps.peerConnect ps.lastHost ps.lastPort outcome

/-- The forced reconnect before a retry. -/
def forceReconnect (outcome : ConnectOutcome) : PeerState × Bool :=
  let closed := ps.peerDisconnect
  closed.peerConnect closed.lastHost closed.lastPort outcome

/-- Closing the connection leaves the peer queue and where to connect again. -/
@[simp] theorem peerDisconnect_pendingPeer : ps.peerDisconnect.pendingPeer = ps.pendingPeer := by
  rw [peerDisconnect]
  split <;> rfl

@[simp] theorem peerDisconnect_lastHost : ps.peerDisconnect.lastHost = ps.lastHost := by
  rw [peerDisconnect]
  split <;> rfl

@[simp] theorem peerDisconnect_lastPort : ps.peerDisconnect.lastPort = ps.lastPort := by
  rw [peerDisconnect]
  split <;> rfl

@[simp] theorem peerDisconnect_sessionId : ps.peerDisconnect.sessionId = ps.sessionId := by
  rw [peerDisconnect]
  split <;> rfl

@[simp] theorem peerDisconnect_connected : ps.peerDisconnect.connected = false := by
  rw [peerDisconnect]
  cases hconnected : ps.connected <;> cases ps.initialized <;> simp [hconnected]

@[simp] theorem peerConnect_pendingPeer (host : List UInt8) (port : Int)
    (outcome : ConnectOutcome) :
    (ps.peerConnect host port outcome).1.pendingPeer = ps.pendingPeer := by
  cases outcome with
  | noTls | noHello => rfl
  | hello sessionId keyHash written =>
    simp only [peerConnect]
    split <;> rfl

@[simp] theorem peerConnect_lastHost (host : List UInt8) (port : Int)
    (outcome : ConnectOutcome) :
    (ps.peerConnect host port outcome).1.lastHost = host.take 63 := by
  cases outcome with
  | noTls | noHello => rfl
  | hello sessionId keyHash written =>
    simp only [peerConnect]
    split <;> rfl

@[simp] theorem peerConnect_lastPort (host : List UInt8) (port : Int)
    (outcome : ConnectOutcome) : (ps.peerConnect host port outcome).1.lastPort = port := by
  cases outcome with
  | noTls | noHello => rfl
  | hello sessionId keyHash written =>
    simp only [peerConnect]
    split <;> rfl

/-- `peer_connect` succeeds when the client hello is written after the key hash check. -/
theorem peerConnect_snd (host : List UInt8) (port : Int) (outcome : ConnectOutcome) :
    (ps.peerConnect host port outcome).2 = outcome.succeeds ps.pendingPeer := by
  cases outcome with
  | noTls | noHello => rfl
  | hello sessionId keyHash written =>
    simp only [peerConnect, ConnectOutcome.succeeds]
    cases ps.pendingPeer.keyHashOk keyHash <;> simp

/-- A connection that is made goes where it was asked for, with a checked key hash, and its
session id is the one that is kept. -/
theorem peerConnect_link {host : List UInt8} {port : Int} {outcome : ConnectOutcome}
    (h : (ps.peerConnect host port outcome).2 = true) :
    ∃ keyHash, ps.pendingPeer.keyHashOk keyHash = true ∧
      (ps.peerConnect host port outcome).1.connected = true ∧
      (ps.peerConnect host port outcome).1.link =
        some ⟨host, port, some keyHash, some (ps.peerConnect host port outcome).1.sessionId⟩ := by
  cases outcome with
  | noTls | noHello => cases h
  | hello sessionId keyHash written =>
    rw [peerConnect_snd, ConnectOutcome.succeeds, Bool.and_eq_true] at h
    obtain ⟨hok, rfl⟩ := h
    refine ⟨keyHash, hok, ?_⟩
    simp only [peerConnect, hok, if_true, Bool.true_or, true_and]

/-- The peer queue a call for a contact works with. -/
theorem prepare_pendingPeer (p : PeerQueue) : (ps.prepare p).pendingPeer = p := by
  rw [prepare]
  split <;> simp [acceptPeer]

/-- A connection that is prepared names the host of its queue. -/
theorem prepare_lastHost (p : PeerQueue) : (ps.prepare p).lastHost = p.hostName := by
  rw [prepare]
  split <;> simp [acceptPeer]

/-- And its port. -/
theorem prepare_lastPort (p : PeerQueue) : (ps.prepare p).lastPort = p.port := by
  rw [prepare]
  split <;> simp [acceptPeer]

/-- Making the connection does not change which one is wanted. -/
theorem ensureConnected_pendingPeer (outcome : ConnectOutcome) :
    (ps.ensureConnected outcome).1.pendingPeer = ps.pendingPeer := by
  rw [ensureConnected]
  split
  · rfl
  · split
    · rfl
    · simp

/-- Reconnecting keeps the port. -/
theorem ensureConnected_lastPort (outcome : ConnectOutcome) :
    (ps.ensureConnected outcome).1.lastPort = ps.lastPort := by
  rw [ensureConnected]
  split
  · rfl
  · split
    · rfl
    · simp

/-- Reconnecting keeps a host that fits. -/
theorem ensureConnected_lastHost {outcome : ConnectOutcome} (h : ps.lastHost.length ≤ 63) :
    (ps.ensureConnected outcome).1.lastHost = ps.lastHost := by
  rw [ensureConnected]
  split
  · rfl
  · split
    · rfl
    · simp [List.take_of_length_le h]

end PeerState

/-- A host name fits in `last_host`. -/
theorem PeerQueue.hostName_length (p : PeerQueue) : p.hostName.length ≤ 63 :=
  List.length_take_le _ _

/-! ### Handshake entries -/

namespace HandshakeArray

variable (hs : HandshakeArray)

/-- The active entry. -/
def current : HandshakeEntry := hs.entries hs.active

/-- `handshake_save_state`, of the active entry. -/
def saveState (lands : Bool) : HandshakeArray :=
  if lands then { hs with stored := Function.update hs.stored hs.active (some hs.current) } else hs

/-- `handshake_load_state`: without a stored entry the one in RAM stays. -/
def loadState : HandshakeArray :=
  { hs with
    entries := Function.update hs.entries hs.active ((hs.stored hs.active).getD hs.current) }

/-- `handshake_set_active`. -/
def setActive (idx : ℕ) (lands : Bool) : HandshakeArray :=
  if maxContacts ≤ idx then hs
  else
    let saved := if hs.active ≠ idx then hs.saveState lands else hs
    { saved with active := idx }.loadState

/-- The entry after a message is built: the id is counted up, whatever becomes of it. -/
def countUp : HandshakeArray :=
  { hs with
    entries := Function.update hs.entries hs.active
      { hs.current with msgId := hs.current.msgId + 1 } }

/-- `handshake_state.prev_msg_hash` is set, and saved. -/
def setPrevMsgHash (hash : Bytes 32) (lands : Bool) : HandshakeArray :=
  { hs with
    entries := Function.update hs.entries hs.active { hs.current with prevMsgHash := hash }
    }.saveState lands

/-- The message a send builds. -/
def builtMessage (kind : AgentSend) : List UInt8 :=
  agentMessage (hs.current.msgId + 1) hs.current.prevMsgHash kind.aMessage

@[simp] theorem saveState_active (lands : Bool) : (hs.saveState lands).active = hs.active := by
  rw [saveState]
  split <;> rfl

@[simp] theorem setPrevMsgHash_active (hash : Bytes 32) (lands : Bool) :
    (hs.setPrevMsgHash hash lands).active = hs.active := by
  rw [setPrevMsgHash, saveState_active]

/-- The entry of the contact is active after the switch. -/
theorem setActive_active {idx : ℕ} (h : idx < maxContacts) (lands : Bool) :
    (hs.setActive idx lands).active = idx := by
  rw [setActive, if_neg (by omega)]
  rfl

end HandshakeArray

/-! ### Sending -/

namespace PeerTasks

variable (s : PeerTasks)

/-- The stored peer queue of a slot, when `peer_load_state` accepts it. -/
def loadablePeer (idx : ℕ) : Option PeerQueue := (s.storedPeer idx).filter PeerQueue.acceptable

/-- `peer_load_state`. -/
def peerLoadState (idx : ℕ) : PeerTasks :=
  { s with peer := (s.loadablePeer idx).elim s.peer s.peer.acceptPeer }

/-- The transmission a send for this contact builds. -/
def builtTransmission (idx : ℕ) (kind : AgentSend) : PeerTransmission where
  sessionId := s.peer.sessionId
  queueId := s.peer.pendingPeer.queueIdBytes
  message := s.handshakes.builtMessage kind
  contact := idx
  call := s.reports.length

/-- A block that was written is recorded. -/
def record (tx : PeerTransmission) (link : PeerLink) (outcome : WriteOutcome) (isRetry : Bool) :
    PeerTasks :=
  { s with wire := s.wire ++ [⟨tx, link, isRetry, outcome.reached, outcome.accepted⟩] }

/-- `smp_write_command_block`: nothing is written over a connection that is lost. -/
def writeBlock (tx : PeerTransmission) (outcome : WriteOutcome) (isRetry : Bool) :
    Option PeerTasks :=
  if outcome.written then s.peer.link.map fun link => s.record tx link outcome isRetry else none

/-- The answer to a transmission is `OK`. -/
def acceptHash (tx : PeerTransmission) (hash : Bytes 32) (lands : Bool) : PeerTasks :=
  { s with
    handshakes := s.handshakes.setPrevMsgHash hash lands
    hashUpdates := s.hashUpdates ++ [HashUpdate.mk s.handshakes.active tx] }

/-- The transmission is kept after a failed write; an older one is freed. -/
def saveRetry (tx : PeerTransmission) (hash : Bytes 32) (alloc : Bool) : PeerTasks :=
  { s with retry := if alloc then some ⟨tx, hash, s.handshakes.active⟩ else none }

/-- The state once the message is built. -/
def counted : PeerTasks := { s with handshakes := s.handshakes.countUp }

/-- `encrypt_and_send_agent_msg` with the builder before it, and `send_hello_message`. -/
def encryptAndSend (sha256 : List UInt8 → Bytes 32) (idx : ℕ) (kind : AgentSend) (env : SendEnv) :
    PeerTasks × Bool :=
  let tx := s.builtTransmission idx kind
  if kind.fits tx.message && env.encrypts then
    match s.counted.writeBlock tx env.write false with
    | none =>
      (if kind.retries then s.counted.saveRetry tx (sha256 tx.message) env.retryAlloc
        else s.counted, false)
    | some sent =>
      if env.write.accepted then (sent.acceptHash tx (sha256 tx.message) env.hashLands, true)
      else (sent, false)
  else (s.counted, false)

/-- The saved transmission with the session id replaced, and signed again. -/
def resigned (saved : RetryBuffer) : RetryBuffer :=
  { saved with transmission := { saved.transmission with sessionId := s.peer.sessionId } }

/-- `handshake_retry_send`: the transmission is changed in the buffer. -/
def handshakeRetrySend (env : SendEnv) : PeerTasks × Bool :=
  match s.retry with
  | none => (s, false)
  | some saved =>
    let tx := (s.resigned saved).transmission
    let kept := { s with retry := some (s.resigned saved) }
    match kept.writeBlock tx env.rewrite true with
    | none => (kept, false)
    | some sent =>
      if env.rewrite.accepted then
        ({ sent.acceptHash tx saved.prevMsgHash env.retryLands with retry := none }, true)
      else (sent, false)

/-- What the `peer_send_*` functions do after a send that failed. -/
def retryAfterFailure (env : SendEnv) : PeerTasks × Bool :=
  if s.retry.isSome then
    match s.peer.forceReconnect env.reconnect with
    | (made, true) => { s with peer := made }.handshakeRetrySend env
    | (made, false) => ({ s with peer := made }, false)
  else (s, false)

/-- The send, with the retry after it. -/
def sendOrRetry (sha256 : List UInt8 → Bytes 32) (idx : ℕ) (kind : AgentSend) (env : SendEnv) :
    PeerTasks × Bool :=
  match s.encryptAndSend sha256 idx kind env with
  | (sent, true) => (sent, true)
  | (sent, false) => if kind.retries then sent.retryAfterFailure env else (sent, false)

/-- The state in which a call for a contact sends. -/
def ready (idx : ℕ) (p : PeerQueue) (env : SendEnv) : PeerTasks :=
  { s with
    peer := ((s.peer.prepare p).ensureConnected env.connect).1
    handshakes := s.handshakes.setActive idx env.switchLands }

/-- `peer_send_hello`, `peer_send_chat_message`, `peer_send_receipt` and
`peer_send_raw_agent_msg`, up to the value they return. `peer_prepare_for_contact` fails when the
contact is not in use or its peer queue cannot be loaded. -/
def peerSendResult (sha256 : List UInt8 → Bytes 32) (idx : ℕ) (kind : AgentSend) (env : SendEnv) :
    PeerTasks × Bool :=
  if idx < maxContacts ∧ s.contactActive idx then
    match s.loadablePeer idx with
    | none => (s, false)
    | some p =>
      if ((s.peer.prepare p).ensureConnected env.connect).2 ∧ p.valid ≠ 0 ∧ p.hasDh ≠ 0 ∧
          env.blockAlloc then
        (s.ready idx p env).sendOrRetry sha256 idx kind env
      else (s.ready idx p env, false)
  else (s, false)

/-- A `peer_send_*` call. -/
def peerSend (sha256 : List UInt8 → Bytes 32) (idx : ℕ) (kind : AgentSend) (env : SendEnv) :
    PeerTasks :=
  let result := s.peerSendResult sha256 idx kind env
  { result.1 with reports := result.1.reports ++ [⟨idx, result.2⟩] }

/-! ### What the functions can do -/

/-- A call for the contact gets as far as preparing the connection. -/
def Prepares (idx : ℕ) : Bool :=
  idx < maxContacts && s.contactActive idx && (s.loadablePeer idx).isSome

/-- A call fails before it prepares the connection, or before it sends, or sends in the state it has
prepared. -/
theorem peerSendResult_cases (sha256 : List UInt8 → Bytes 32) (idx : ℕ) (kind : AgentSend)
    (env : SendEnv) :
    s.Prepares idx = false ∧ s.peerSendResult sha256 idx kind env = (s, false) ∨
    ∃ p, idx < maxContacts ∧ s.contactActive idx = true ∧ s.loadablePeer idx = some p ∧
      (s.peerSendResult sha256 idx kind env = (s.ready idx p env, false) ∨
        ((s.peer.prepare p).ensureConnected env.connect).2 = true ∧ env.blockAlloc = true ∧
          s.peerSendResult sha256 idx kind env =
            (s.ready idx p env).sendOrRetry sha256 idx kind env) := by
  rw [peerSendResult]
  by_cases hidx : idx < maxContacts ∧ s.contactActive idx = true
  · rw [if_pos hidx]
    cases hload : s.loadablePeer idx with
    | none => exact Or.inl ⟨by simp [Prepares, hload], rfl⟩
    | some p =>
      refine Or.inr ⟨p, hidx.1, hidx.2, rfl, ?_⟩
      by_cases hready : ((s.peer.prepare p).ensureConnected env.connect).2 = true ∧
          p.valid ≠ 0 ∧ p.hasDh ≠ 0 ∧ env.blockAlloc = true
      · exact Or.inr ⟨hready.1, hready.2.2.2, if_pos hready⟩
      · exact Or.inl (if_neg hready)
  · refine Or.inl ⟨?_, if_neg hidx⟩
    rw [Prepares, Bool.and_eq_false_iff]
    exact Or.inl (by simpa using hidx)

/-- A block is written over a connection, or not at all. -/
theorem writeBlock_cases (tx : PeerTransmission) (outcome : WriteOutcome) (isRetry : Bool) :
    ((outcome.written = true → s.peer.link = none) ∧ s.writeBlock tx outcome isRetry = none) ∨
    (∃ link, outcome.written = true ∧ s.peer.link = some link ∧
      s.writeBlock tx outcome isRetry = some (s.record tx link outcome isRetry)) := by
  rw [writeBlock]
  cases hwritten : outcome.written with
  | false => exact Or.inl ⟨nofun, rfl⟩
  | true =>
    cases hlink : s.peer.link with
    | none => exact Or.inl ⟨fun _ => rfl, rfl⟩
    | some link => exact Or.inr ⟨link, rfl, rfl, rfl⟩

/-- A send of the device's own message stops before the write, at the write, without an `OK`, or
succeeds. -/
theorem encryptAndSend_cases (sha256 : List UInt8 → Bytes 32) (idx : ℕ) (kind : AgentSend)
    (env : SendEnv) :
    (¬(kind.fits (s.handshakes.builtMessage kind) = true ∧ env.encrypts = true) ∧
      s.encryptAndSend sha256 idx kind env = (s.counted, false)) ∨
    ((env.write.written = true → s.peer.link = none) ∧
      s.encryptAndSend sha256 idx kind env =
        (if kind.retries then s.counted.saveRetry (s.builtTransmission idx kind)
          (sha256 (s.handshakes.builtMessage kind)) env.retryAlloc else s.counted, false)) ∨
    (∃ link, env.write.written = true ∧ s.peer.link = some link ∧ env.write.accepted = false ∧
      s.encryptAndSend sha256 idx kind env =
        (s.counted.record (s.builtTransmission idx kind) link env.write false, false)) ∨
    (∃ link, env.write.written = true ∧ s.peer.link = some link ∧ env.write.accepted = true ∧
      s.encryptAndSend sha256 idx kind env =
        ((s.counted.record (s.builtTransmission idx kind) link env.write false).acceptHash
          (s.builtTransmission idx kind) (sha256 (s.handshakes.builtMessage kind))
          env.hashLands, true)) := by
  have hmessage : (s.builtTransmission idx kind).message = s.handshakes.builtMessage kind := rfl
  rw [encryptAndSend, hmessage]
  by_cases hbuilt : (kind.fits (s.handshakes.builtMessage kind) && env.encrypts) = true
  · rw [if_pos hbuilt]
    rcases s.counted.writeBlock_cases (s.builtTransmission idx kind) env.write false with
      ⟨hnone, heq⟩ | ⟨link, hwritten, hlink, heq⟩
    · rw [heq]
      exact Or.inr (Or.inl ⟨hnone, rfl⟩)
    · rw [heq]
      cases haccepted : env.write.accepted with
      | false => exact Or.inr (Or.inr (Or.inl ⟨link, hwritten, hlink, rfl, rfl⟩))
      | true => exact Or.inr (Or.inr (Or.inr ⟨link, hwritten, hlink, rfl, rfl⟩))
  · rw [if_neg hbuilt]
    exact Or.inl ⟨fun h => hbuilt (by rw [h.1, h.2]; rfl), rfl⟩

/-- Sending leaves the connection. -/
theorem encryptAndSend_peer (sha256 : List UInt8 → Bytes 32) (idx : ℕ) (kind : AgentSend)
    (env : SendEnv) : (s.encryptAndSend sha256 idx kind env).1.peer = s.peer := by
  rcases s.encryptAndSend_cases sha256 idx kind env with ⟨_, heq⟩ | ⟨_, heq⟩ |
    ⟨link, _, _, _, heq⟩ | ⟨link, _, _, _, heq⟩
  · rw [heq]
    rfl
  · rw [heq]
    cases kind.retries <;> rfl
  · rw [heq]
    rfl
  · rw [heq]
    rfl

/-- A retry finds nothing to send, cannot write, has no `OK`, or succeeds. -/
theorem handshakeRetrySend_cases (env : SendEnv) :
    (s.retry = none ∧ s.handshakeRetrySend env = (s, false)) ∨
    (∃ saved, s.retry = some saved ∧ (env.rewrite.written = true → s.peer.link = none) ∧
      s.handshakeRetrySend env = ({ s with retry := some (s.resigned saved) }, false)) ∨
    (∃ saved link, s.retry = some saved ∧ env.rewrite.written = true ∧ s.peer.link = some link ∧
      env.rewrite.accepted = false ∧
      s.handshakeRetrySend env =
        ({ s.record (s.resigned saved).transmission link env.rewrite true with
          retry := some (s.resigned saved) }, false)) ∨
    (∃ saved link, s.retry = some saved ∧ env.rewrite.written = true ∧ s.peer.link = some link ∧
      env.rewrite.accepted = true ∧
      s.handshakeRetrySend env =
        ({ (s.record (s.resigned saved).transmission link env.rewrite true).acceptHash
            (s.resigned saved).transmission saved.prevMsgHash env.retryLands with
          retry := none }, true)) := by
  rw [handshakeRetrySend]
  cases hretry : s.retry with
  | none => exact Or.inl ⟨rfl, rfl⟩
  | some saved =>
    rcases ({ s with retry := some (s.resigned saved) } : PeerTasks).writeBlock_cases
        (s.resigned saved).transmission env.rewrite true with
      ⟨hnone, heq⟩ | ⟨link, hwritten, hlink, heq⟩
    · simp only [heq]
      exact Or.inr (Or.inl ⟨saved, rfl, hnone, rfl⟩)
    · simp only [heq]
      cases haccepted : env.rewrite.accepted with
      | false => exact Or.inr (Or.inr (Or.inl ⟨saved, link, rfl, hwritten, hlink, rfl, rfl⟩))
      | true => exact Or.inr (Or.inr (Or.inr ⟨saved, link, rfl, hwritten, hlink, rfl, rfl⟩))

/-! ### Starting -/

/-- The device after a reboot. `app_main` loads slot 0 when a session is stored, and drops all
contacts when the session is not restored; the contacts are loaded after the server is
connected. -/
def reboot (connects : Bool) : PeerTasks :=
  let kept := if s.sessionStored && s.sessionLoads then s.storedContact else fun _ => false
  let array : HandshakeArray := ⟨fun _ => .zero, 0, s.handshakes.stored⟩
  { s with
    contactActive := if connects then kept else fun _ => false
    storedContact := if connects then kept else s.storedContact
    peer :=
      if s.sessionStored then (s.loadablePeer 0).elim .initial PeerState.initial.acceptPeer
      else .initial
    handshakes := if s.sessionStored then array.loadState else array
    retry := none }

/-- A device with these contacts, and with what NVS holds for them, before it has sent
anything. -/
def start (contactActive : ℕ → Bool) (storedPeer : ℕ → Option PeerQueue)
    (storedHandshake : ℕ → Option HandshakeEntry) (sessionStored sessionLoads : Bool) :
    PeerTasks where
  contactActive := contactActive
  storedContact := contactActive
  sessionStored := sessionStored
  sessionLoads := sessionLoads
  storedPeer := storedPeer
  peer := .initial
  handshakes := ⟨fun _ => .zero, 0, storedHandshake⟩
  retry := none
  wire := []
  hashUpdates := []
  reports := []

end PeerTasks

/-- What can happen. An invitation is parsed into `pending_peer` with any result. -/
inductive PeerStep where
  | connect (host : List UInt8) (port : Int) (outcome : ConnectOutcome)
  | disconnect
  | loadState (idx : ℕ)
  | parseInvitation (p : PeerQueue)
  | setActive (idx : ℕ) (lands : Bool)
  | send (idx : ℕ) (kind : AgentSend) (env : SendEnv)
  | reboot (connects : Bool)

/-- One step. -/
def PeerTasks.step (sha256 : List UInt8 → Bytes 32) (s : PeerTasks) : PeerStep → PeerTasks
  | .connect host port outcome => { s with peer := (s.peer.peerConnect host port outcome).1 }
  | .disconnect => { s with peer := s.peer.peerDisconnect }
  | .loadState idx => s.peerLoadState idx
  | .parseInvitation p => { s with peer := { s.peer with pendingPeer := p } }
  | .setActive idx lands => { s with handshakes := s.handshakes.setActive idx lands }
  | .send idx kind env => s.peerSend sha256 idx kind env
  | .reboot connects => s.reboot connects

end SimpleGo
