import SimpleGo.Agent.Envelope
import SimpleGo.Agent.Receive
import SimpleGo.Contacts.SlotReuse
import SimpleGo.Ratchet.FailedDecrypt

/-!
# Messages on a contact's queue

`app_handle_contact_queue_msg` selects the contact's slot. For a contact whose handshake is done
it opens the server and the E2E layer and hands the text to the agent, whose ratchet takes it or
not. When that does not open, the message goes the way of a handshake message: only the server
layer is opened, and an invitation in the plaintext is written into `pending_peer` and answered
with a confirmation, for which the contact's ratchet is set up anew.

What the device does after the ratchet has accepted a message is left to the other steps.
-/

namespace SimpleGo

open Lib

variable {K : Type}

/-! ### The state and a message -/

/-- The app task as far as it handles messages on the contacts' queues. -/
structure ContactQueueTask (K : Type) where
  dev : ContactDevice K
  pendingPeer : PeerQueue
  /-- What the last opened header said about the KEM. -/
  recvPq : Option ParsedMsgHeader
  pqEnabled : Bool
  /-- `is_42d_done`. -/
  done42d : ℕ → Bool
  /-- A rotation runs and waits for the QTEST of the contact. -/
  quseSent : ℕ → Bool
  /-- `s_cq_e2e_peer_public`, where `s_cq_e2e_peer_valid` is set. -/
  cqE2ePeer : Option (Bytes 32)
  /-- What `rotation_get_cq_peer_e2e` finds. -/
  rotationCqPeer : Option (Bytes 32)
  /-- The E2E key each contact encrypts with. -/
  peerE2e : ℕ → Bytes 32

/-- What the environment decides while a confirmation is made and sent. -/
structure ConfirmEnv where
  blockAlloc : Bool
  /-- The queue info, if it can be encoded, and the profile behind it. -/
  queueInfo : Option (List UInt8)
  connInfo : List UInt8
  keys : Option (X448KeyPair × X448KeyPair)
  encAlloc : Bool
  encCleanup : Bool
  /-- The rest succeeds, and the server answers `OK`. -/
  accepted : Bool

/-- A MSG on a contact's queue, with what the environment decides while it is handled. -/
structure QueueMsg where
  msg : EncryptedMsg
  envelope : EnvelopeEnv
  /-- What lies behind the E2E plaintext. -/
  e2eJunk : Mem
  receive : ReceiveDraws
  /-- Which NVS writes of the ratchet land. -/
  lands : ℕ → Bool
  plainAlloc : Bool
  decryptedAlloc : Bool
  parse : ParseEnv
  connects : Bool
  confirm : ConfirmEnv

/-- The ratchet message in an E2E plaintext: behind the keys of a confirmation, or behind the
tag of an agent message, which is looked at only when the ratchet is set up. -/
def ermOf (plain : Mem) (plainLen : ℕ) (initialized : Bool) : Option ClientMessage :=
  let originalLen := read16 plain 0
  if plainLen < 3 then none
  else if plain 2 = 0x4B then
    some ⟨fun i => plain (2 + i), originalLen, 2 + (plain 3).toNat + 4⟩
  else if plain 2 = 0x5F ∧ plain 5 = 0x4D ∧ 24 ≤ originalLen ∧ initialized then
    some ⟨fun i => plain (6 + i), originalLen - 4, 0⟩
  else none

namespace ContactQueueTask

variable (P : Primitives K) (B : Boxes) (s : ContactQueueTask K) (c : ℕ) (m : QueueMsg)

/-! ### The two ways of a message -/

/-- `ratchet_set_active` and `handshake_set_active`. -/
def select : ContactQueueTask K :=
  { s with dev := (s.dev.ratchetSetActive c).handshakeSetActive c }

/-- `ratchet_decrypt_message` on a message for the active slot. -/
def decryptErm (erm : ClientMessage) : ReceiveOut K :=
  ratchetDecryptMessage P s.dev.activeRatchetIdx s.pqEnabled m.receive s.recvPq
    s.dev.ratchetState erm

/-- `smp_agent_process_message`, as to the ratchet. -/
def smpAgentProcessMessage (text : List UInt8) : ContactQueueTask K :=
  match ermOf (memOf text m.e2eJunk) text.length s.dev.ratchetState.initialized with
  | none => s
  | some erm =>
    let out := s.decryptErm P m erm
    { s with
      dev := { s.dev with
        ratchetState := out.state
        nvs := s.dev.nvs.putAll (Store.landed m.lands out.writes) }
      recvPq := out.recvPq }

/-- The ratchet of the active slot accepts the message in an E2E plaintext. -/
def RatchetAccepts (text : List UInt8) : Prop :=
  ∃ erm ∈ ermOf (memOf text m.e2eJunk) text.length s.dev.ratchetState.initialized,
    (s.decryptErm P m erm).body.isSome = true

/-- `our_queue.e2e_private`. -/
def e2ePrivate : Bytes 32 := (s.dev.ourQueue.map (·.e2ePrivate)).getD (zeroBytes 32)

/-- Both layers of a message opened; the key kept from a rotation fills in for a missing one. -/
def openEnvelope : OpenedEnvelope :=
  match B.beforenm (s.dev.contacts c).srvDhPublic (s.dev.contacts c).rcvDhSecret with
  | none => ⟨none, none⟩
  | some shared =>
    smpE2eDecryptReplyMessageEx B m.envelope m.msg shared s.e2ePrivate
      (s.cqE2ePeer <|> s.rotationCqPeer)

/-- The slot a confirmation is made for. -/
def confirmationSlot : ℕ := if c < maxContacts ∧ (s.dev.contacts c).isActive then c else 0

/-- The ratchet part of `send_agent_confirmation` for slot `idx`: a new X3DH, a new ratchet, and
the connection info as its first message. -/
def confirmWithKeys (idx : ℕ) (env : ConfirmEnv) (lands : ℕ → Bool) (info : List UInt8)
    (key1 key2 : X448KeyPair) : ContactQueueTask K :=
  let peer := s.pendingPeer
  match ratchetX3dhSender P peer.e2eKey1 peer.e2eKey2 key1 key2 s.dev.ratchetState with
  | none => s
  | some st =>
    match ratchetInitSender P peer.e2eKey2 key2 st with
    | (false, st) => { s with dev := { s.dev with ratchetState := st } }
    | (true, st) =>
      let saved := ratchetSaveState s.dev.activeRatchetIdx st
      if !env.encAlloc then
        { s with dev := { s.dev with
            ratchetState := st
            nvs := s.dev.nvs.putAll (Store.landed lands saved) } }
      else
        let out := ratchetEncrypt P s.dev.activeRatchetIdx s.pqEnabled env.encCleanup st
          (info ++ env.connInfo) 14832
        let nvs := s.dev.nvs.putAll (Store.landed lands (saved ++ out.writes))
        if out.output.isSome ∧ env.accepted then
          -- `complete_handshake` zeroes the entry before the peer is saved.
          { s with dev := { s.dev with
              ratchetState := out.state
              handshakes := Function.update s.dev.handshakes s.dev.activeHandshakeIdx .zero
              nvs := nvs.put (peerKey idx) (.peer peer) } }
        else { s with dev := { s.dev with ratchetState := out.state, nvs } }

/-- `send_agent_confirmation` once the peer is connected. -/
def sendAgentConfirmation (env : ConfirmEnv) (lands : ℕ → Bool) : ContactQueueTask K :=
  let idx := s.confirmationSlot c
  if !env.blockAlloc ∨ !(s.dev.ourQueue.any (·.valid)) then s
  else if !(s.dev.replyQueues idx).valid ∧ 0 < idx then s
  else
    match env.queueInfo, env.keys with
    | some info, some (key1, key2) =>
      if s.pendingPeer.hasE2e = 0 then s.select idx
      else (s.select idx).confirmWithKeys P idx env lands (0x44 :: 1 :: info) key1 key2
    | _, _ => s

/-- An invitation in the text of a message: its peer is entered, connected to and sent a
confirmation. -/
def takeInvitation (uri : List UInt8) : ContactQueueTask K :=
  let entered := { s with pendingPeer := s.pendingPeer.parseUri m.parse.stack uri }
  if entered.pendingPeer.valid ≠ 0 ∧ entered.pendingPeer.hasDh ≠ 0 ∧ m.connects then
    { entered with dev := entered.dev.ratchetSetActive c }.sendAgentConfirmation P c m.confirm m.lands
  else entered

/-- The URI `parse_agent_message` finds when the message is opened as to its server layer. -/
def fallbackInvitation : Option (List UInt8) :=
  if m.plainAlloc then
    (decryptSmpMessage B (s.dev.contacts c) m.msg).bind
      (plainInvitation B m.decryptedAlloc m.parse (s.dev.contacts c).rcvDhSecret)
  else none

/-- The way of a message that is not opened as to its E2E layer: `parse_agent_message`. -/
def fallback : ContactQueueTask K :=
  match s.fallbackInvitation B c m with
  | none => s
  | some uri => s.takeInvitation P c m uri

/-- The sender key of an envelope is kept for the next one. -/
def learnSenderKey (opened : OpenedEnvelope) : ContactQueueTask K :=
  { s with cqE2ePeer := opened.newPeer <|> s.cqE2ePeer <|> s.rotationCqPeer }

/-- `app_handle_contact_queue_msg`, once the slot is selected. -/
def handleSelected : ContactQueueTask K :=
  if s.quseSent c then { s with quseSent := Function.update s.quseSent c false }
  else if s.done42d c then
    let opened := s.openEnvelope B c m
    match opened.plain with
    | some (_, text) => (s.learnSenderKey opened).smpAgentProcessMessage P m text
    | none => (s.learnSenderKey opened).fallback P B c m
  else s.fallback P B c m

/-- `app_handle_contact_queue_msg`. -/
def appHandleContactQueueMsg : ContactQueueTask K :=
  if (s.dev.contacts c).haveSrvDh = 0 ∨ m.msg.encrypted.length ≤ 16 then s
  else (s.select c).handleSelected P B c m

end ContactQueueTask

/-- A step: a MSG on the queue of a contact, or whatever the rest of the firmware does. -/
inductive ContactQueueStep (K : Type) where
  | contactMsg (c : ℕ) (hc : c < maxContacts) (m : QueueMsg)
  | rest (next : ContactQueueTask K) (hnext : next.dev.activeHandshakeIdx < maxContacts)

namespace ContactQueueTask

/-- The state after a step. -/
def step (P : Primitives K) (B : Boxes) (s : ContactQueueTask K) :
    ContactQueueStep K → ContactQueueTask K
  | .contactMsg c _ m => s.appHandleContactQueueMsg P B c m
  | .rest next _ => next

/-! ### What a message must leave alone -/

variable (P : Primitives K) (B : Boxes) (s : ContactQueueTask K) (c : ℕ) (m : QueueMsg)

/-- The ratchet of a contact: its keys and counters, wherever they are kept. -/
def ratchetOf : RatchetClassical K := (s.dev.ratchetSetActive c).ratchetState.toRatchetClassical

/-- The handshake entry of a contact: in RAM while it is the active one, else in NVS. -/
def handshakeOf : HandshakeEntry :=
  if s.dev.activeHandshakeIdx = c then s.dev.handshakes c
  else (ContactDevice.storedHandshake s.dev.nvs c).getD (s.dev.handshakes c)

/-- A contact's session is in `s'` what it is in `s`: its ratchet, its peer queue in RAM and in
NVS, and its handshake. -/
structure SessionKept (s s' : ContactQueueTask K) : Prop where
  ratchet : s'.ratchetOf c = s.ratchetOf c
  pendingPeer : s'.pendingPeer = s.pendingPeer
  storedPeer : s'.dev.nvs (peerKey c) = s.dev.nvs (peerKey c)
  handshake : s'.handshakeOf c = s.handshakeOf c
  done42d : s'.done42d c = s.done42d c

/-- The message is an envelope of the contact's E2E key around a message its ratchet accepts. -/
def FromContact : Prop :=
  ∃ text, ((s.select c).openEnvelope B c m).plain = some (s.peerE2e c, text) ∧
    (s.select c).RatchetAccepts P m text

/-- A message leaves the sessions alone unless it comes from the contact. -/
def KeepsSession : ContactQueueStep K → Prop
  | .contactMsg c _ m =>
    s.done42d c = true → (decryptSmpMessage B (s.dev.contacts c) m.msg).isSome = true →
      ¬ s.FromContact P B c m → SessionKept c s (s.appHandleContactQueueMsg P B c m)
  | .rest _ _ => True

/-- The handshake entry of the contact is not the active one, or is stored as it is in RAM, if
at all: selecting the slot again loads the stored one. -/
def EntryStored : Prop :=
  s.dev.activeHandshakeIdx = c →
    ContactDevice.storedHandshake s.dev.nvs c = none ∨
      ContactDevice.storedHandshake s.dev.nvs c = some (s.dev.handshakes c)

/-- A message that takes the way of a handshake message carries no invitation. -/
def NoFallbackInvitation : Prop :=
  s.quseSent c = false → ((s.select c).openEnvelope B c m).plain = none →
    s.fallbackInvitation B c m = none

/-- What another E2E key has encrypted is not for the contact's ratchet. -/
def NoForeignKey : Prop :=
  ∀ key text, ((s.select c).openEnvelope B c m).plain = some (key, text) →
    key ≠ s.peerE2e c → ¬ (s.select c).RatchetAccepts P m text

/-- The condition on a message: it is handled with its entry stored, carries no invitation past
the E2E layer and no ratchet message from another sender. -/
def Harmless : ContactQueueStep K → Prop
  | .contactMsg c _ m =>
    s.done42d c = true →
      s.EntryStored c ∧ s.NoFallbackInvitation B c m ∧ s.NoForeignKey P B c m
  | .rest _ _ => True

/-! ### Selecting a slot -/

end ContactQueueTask

/-- After its selection the slot's ratchet is the active one. -/
theorem ratchetSetActive_active (dev : ContactDevice K) {i : ℕ} (hi : i < maxContacts) :
    (dev.ratchetSetActive i).activeRatchetIdx = i ∧
      (dev.ratchetSetActive i).handshakes = dev.handshakes ∧
      (dev.ratchetSetActive i).activeHandshakeIdx = dev.activeHandshakeIdx := by
  rw [ContactDevice.ratchetSetActive, if_neg (Nat.not_le_of_lt hi)]
  dsimp only
  by_cases hinit : (dev.putBack i).initialized = true
  · rw [if_pos hinit]
    exact ⟨rfl, rfl, rfl⟩
  · rw [if_neg hinit]
    cases ratchetReload dev.nvs i <;> exact ⟨rfl, rfl, rfl⟩

/-- Selecting a handshake entry leaves the ratchets and makes the entry the active one. -/
theorem handshakeSetActive_active (dev : ContactDevice K) {i : ℕ} (hi : i < maxContacts) :
    (dev.handshakeSetActive i).ratchetState = dev.ratchetState ∧
      (dev.handshakeSetActive i).activeRatchetIdx = dev.activeRatchetIdx ∧
      (dev.handshakeSetActive i).activeHandshakeIdx = i := by
  have hload : ∀ d : ContactDevice K, d.handshakeLoadState.ratchetState = d.ratchetState ∧
      d.handshakeLoadState.activeRatchetIdx = d.activeRatchetIdx ∧
      d.handshakeLoadState.activeHandshakeIdx = d.activeHandshakeIdx := by
    intro d
    rw [ContactDevice.handshakeLoadState]
    cases ContactDevice.storedHandshake d.nvs d.activeHandshakeIdx <;> exact ⟨rfl, rfl, rfl⟩
  rw [ContactDevice.handshakeSetActive, if_neg (Nat.not_le_of_lt hi)]
  obtain ⟨hratchet, hidx, hactive⟩ := hload { (if dev.activeHandshakeIdx ≠ i then
    dev.handshakeSaveState else dev) with activeHandshakeIdx := i }
  rw [hratchet, hidx, hactive]
  by_cases hsave : dev.activeHandshakeIdx ≠ i
  · rw [if_pos hsave]
    exact ⟨rfl, rfl, rfl⟩
  · rw [if_neg hsave]
    exact ⟨rfl, rfl, rfl⟩

namespace ContactQueueTask

/-- The ratchet of a contact: the slot's in RAM if it is initialised, else the stored one. -/
theorem ratchetOf_eq (s : ContactQueueTask K) {c : ℕ} (hc : c < maxContacts) :
    s.ratchetOf c =
      if (s.dev.slotRatchet c).initialized then (s.dev.slotRatchet c).toRatchetClassical
      else ((ratchetLoadState s.dev.nvs c).map (·.toRatchetClassical)).getD
        (s.dev.slotRatchet c).toRatchetClassical := by
  rw [ratchetOf, ratchetSetActive_found s.dev hc]
  by_cases hinit : (s.dev.slotRatchet c).initialized = true
  · rw [if_pos hinit, if_pos hinit]
  · rw [if_neg hinit, if_neg hinit, ratchetReload]
    cases ratchetLoadState s.dev.nvs c <;> rfl

/-- It is determined by the slot's ratchet in RAM and the stored one. -/
theorem ratchetOf_congr {s s' : ContactQueueTask K} {c : ℕ} (hc : c < maxContacts)
    (hslot : (s'.dev.slotRatchet c).toRatchetClassical = (s.dev.slotRatchet c).toRatchetClassical)
    (hnvs : s'.dev.nvs (ratKey c) = s.dev.nvs (ratKey c)) : s'.ratchetOf c = s.ratchetOf c := by
  rw [ratchetOf_eq s' hc, ratchetOf_eq s hc, hslot, ratchetLoadState_congr hnvs]

variable (s : ContactQueueTask K) {c : ℕ}

/-- What a selection leaves in the state. -/
theorem select_spec (hc : c < maxContacts) (hactive : s.dev.activeHandshakeIdx < maxContacts) :
    (s.select c).dev.slotRatchet c = (s.dev.ratchetSetActive c).ratchetState ∧
      (s.select c).dev.activeRatchetIdx = c ∧
      (s.select c).dev.activeHandshakeIdx = c ∧
      (s.select c).dev.handshakes c =
        (ContactDevice.storedHandshake s.dev.nvs c).getD (s.dev.handshakes c) ∧
      (s.select c).dev.contacts = s.dev.contacts ∧
      ∀ key, keyFamily key ≠ ['h', 'a', 'n'] → (s.select c).dev.nvs key = s.dev.nvs key := by
  obtain ⟨hidx, hentries, hhand⟩ := ratchetSetActive_active s.dev hc
  obtain ⟨hratchet, hidx', hhand'⟩ := handshakeSetActive_active (s.dev.ratchetSetActive c) hc
  obtain ⟨hnvs, hcontacts, -⟩ := ratchetSetActive_records s.dev c
  obtain ⟨hcontacts', -, hkeys⟩ := handshakeSetActive_records (s.dev.ratchetSetActive c) c
  have hentry := handshakeSetActive_found (s.dev.ratchetSetActive c) hc (hhand ▸ hactive)
  rw [hnvs, hentries] at hentry
  have hslot : (s.select c).dev.slotRatchet c = (s.dev.ratchetSetActive c).ratchetState := by
    rw [ContactDevice.slotRatchet, select, if_pos (hidx'.trans hidx), hratchet]
  refine ⟨hslot, hidx'.trans hidx, hhand', hentry, hcontacts'.trans hcontacts, fun key hkey => ?_⟩
  have hne : key ≠ handKey (s.dev.ratchetSetActive c).activeHandshakeIdx :=
    ne_of_keyFamily (by rwa [keyFamily_handKey])
  exact (hkeys key hne).trans (congrFun hnvs key)

/-- Selecting the slot of a contact keeps its session, if its entry is stored as it is. -/
theorem select_kept (hc : c < maxContacts) (hactive : s.dev.activeHandshakeIdx < maxContacts)
    (hstored : s.EntryStored c) : SessionKept c s (s.select c) := by
  obtain ⟨hslot, -, hhand, hentry, -, hnvs⟩ := s.select_spec hc hactive
  have hrat : (s.select c).dev.nvs (ratKey c) = s.dev.nvs (ratKey c) := hnvs _ (by simp)
  refine ⟨?_, rfl, hnvs _ (by simp), ?_, rfl⟩
  · rw [ratchetOf_eq (s.select c) hc, ratchetLoadState_congr hrat, hslot,
      ratchetSetActive_found s.dev hc]
    rw [ratchetOf_eq s hc]
    by_cases hinit : (s.dev.slotRatchet c).initialized = true
    · simp only [if_pos hinit]
    · simp only [if_neg hinit, ratchetReload]
      cases hload : ratchetLoadState s.dev.nvs c with
      | none => simp only [Option.map_none, Option.getD_none, ite_self]
      | some st =>
        have hst := (ratchetLoadState_eq_some hload).2
        simp only [Option.map_some, Option.getD_some, hst, if_true]
  · rw [handshakeOf, if_pos hhand, hentry, handshakeOf]
    by_cases hsame : s.dev.activeHandshakeIdx = c
    · rw [if_pos hsame]
      rcases hstored hsame with hnone | hsome
      · rw [hnone, Option.getD_none]
      · rw [hsome, Option.getD_some]
    · rw [if_neg hsame]

/-! ### A message the ratchet does not accept -/

end ContactQueueTask

/-- A rejected message leaves the keys and counters, and writes PQ keys at most. -/
theorem ratchetDecryptMessage_rejected (P : Primitives K) (idx : ℕ) (enabled : Bool)
    (draws : ReceiveDraws) (recvPq : Option ParsedMsgHeader) (st : RatchetState K)
    (erm : ClientMessage)
    (h : (ratchetDecryptMessage P idx enabled draws recvPq st erm).body = none) :
    (ratchetDecryptMessage P idx enabled draws recvPq st erm).state.toRatchetClassical =
        st.toRatchetClassical ∧
      ∀ w ∈ (ratchetDecryptMessage P idx enabled draws recvPq st erm).writes,
        ∃ field, w.1 = pqKey idx field := by
  have hbody : ∀ (recvPq : Option ParsedMsgHeader) (call : BodyCall),
      (ratchetDecryptBody P idx enabled draws.body recvPq st call).received.body = none →
      (ratchetDecryptBody P idx enabled draws.body recvPq st call).received.state.toRatchetClassical
          = st.toRatchetClassical ∧
        ∀ w ∈ (ratchetDecryptBody P idx enabled draws.body recvPq st call).received.writes,
          ∃ field, w.1 = pqKey idx field := by
    intro recvPq call hnone
    rcases ratchetDecryptBody_cases P idx enabled draws.body recvPq st call with
      ⟨-, e, hout⟩ | ⟨-, -, plaintext, -, hout⟩ | ⟨-, e, hout⟩ | ⟨-, keys, plaintext, -, -, hout⟩
    · rw [hout]
      exact ⟨rfl, fun w hw => absurd hw List.not_mem_nil⟩
    · rw [hout] at hnone
      cases hnone
    · rw [hout]
      exact ⟨rfl, fun w hw =>
        mem_advanceRatchet_writes P idx enabled draws.body recvPq st hw⟩
    · rw [hout] at hnone
      cases hnone
  revert h
  rw [ratchetDecryptMessage]
  cases draws.headerAlloc with
  | false => exact fun _ => ⟨rfl, fun w hw => absurd hw List.not_mem_nil⟩
  | true =>
    simp only [Bool.not_true, Bool.false_eq_true, if_false]
    cases ratchetHeaderTryDecrypt P st erm.clientMsg erm.emHeader with
    | none => exact fun _ => ⟨rfl, fun w hw => absurd hw List.not_mem_nil⟩
    | some header =>
      obtain ⟨mode, opened⟩ := header
      dsimp only
      cases ratchetParseMsgHeader (memOf opened draws.headerJunk) with
      | none => exact fun _ => ⟨rfl, fun w hw => absurd hw List.not_mem_nil⟩
      | some fields =>
        obtain ⟨peerDh, pn, ns⟩ := fields
        dsimp only
        split_ifs
        · exact fun _ => ⟨rfl, fun w hw => absurd hw List.not_mem_nil⟩
        · exact hbody _ _

namespace ContactQueueTask

/-- The agent leaves the session of the active slot when the ratchet does not accept. -/
theorem smpAgentProcessMessage_kept (P : Primitives K) (s : ContactQueueTask K) {c : ℕ}
    (hc : c < maxContacts) (hactive : s.dev.activeRatchetIdx = c)
    (hhand : s.dev.activeHandshakeIdx = c) (m : QueueMsg) (text : List UInt8)
    (hreject : ¬ s.RatchetAccepts P m text) :
    SessionKept c s (s.smpAgentProcessMessage P m text) := by
  rw [smpAgentProcessMessage]
  cases herm : ermOf (memOf text m.e2eJunk) text.length s.dev.ratchetState.initialized with
  | none => exact ⟨rfl, rfl, rfl, rfl, rfl⟩
  | some erm =>
    have hnone : (s.decryptErm P m erm).body = none := by
      by_contra hsome
      exact hreject ⟨erm, herm, Option.isSome_iff_ne_none.2 hsome⟩
    obtain ⟨hkeys, hwrites⟩ := ratchetDecryptMessage_rejected P s.dev.activeRatchetIdx s.pqEnabled
      m.receive s.recvPq s.dev.ratchetState erm hnone
    have hnvs : ∀ key, keyFamily key ≠ ['p', 'q', '_'] →
        s.dev.nvs.putAll (Store.landed m.lands (s.decryptErm P m erm).writes) key =
          s.dev.nvs key := by
      intro key hkey
      refine Store.putAll_of_forall_ne _ _ _ fun w hw => ?_
      obtain ⟨field, hfield⟩ := hwrites w ((Store.landed_sublist _ _).subset hw)
      exact ne_of_keyFamily (by rw [hfield, keyFamily_pqKey]; exact hkey.symm)
    dsimp only
    refine ⟨ratchetOf_congr hc ?_ (hnvs _ (by simp)), rfl, hnvs _ (by simp), ?_, rfl⟩
    · rw [ContactDevice.slotRatchet, ContactDevice.slotRatchet, if_pos hactive, if_pos hactive]
      exact hkeys
    · rw [handshakeOf, handshakeOf, if_pos hhand, if_pos hhand]

/-- Sessions are kept step after step. -/
theorem SessionKept.trans {c : ℕ} {s s' s'' : ContactQueueTask K} (h : SessionKept c s s')
    (h' : SessionKept c s' s'') : SessionKept c s s'' :=
  ⟨h'.ratchet.trans h.ratchet, h'.pendingPeer.trans h.pendingPeer,
    h'.storedPeer.trans h.storedPeer, h'.handshake.trans h.handshake, h'.done42d.trans h.done42d⟩

/-- The keys and flags around the sessions may change. -/
theorem SessionKept.of_same (c : ℕ) {s s' : ContactQueueTask K} (hdev : s'.dev = s.dev)
    (hpeer : s'.pendingPeer = s.pendingPeer) (hdone : s'.done42d = s.done42d) :
    SessionKept c s s' := by
  refine ⟨?_, hpeer, ?_, ?_, congrFun hdone c⟩
  · rw [ratchetOf, ratchetOf, hdev]
  · rw [hdev]
  · rw [handshakeOf, handshakeOf, hdev]

/-! ### One message -/

/-- A message to a selected slot keeps the session when it is harmless and not the contact's. -/
theorem handleSelected_kept (P : Primitives K) (B : Boxes) (s : ContactQueueTask K) {c : ℕ}
    (hc : c < maxContacts) (hactive : s.dev.activeRatchetIdx = c)
    (hhand : s.dev.activeHandshakeIdx = c) (m : QueueMsg) (hdone : s.done42d c = true)
    (hfallback : s.quseSent c = false → (s.openEnvelope B c m).plain = none →
      s.fallbackInvitation B c m = none)
    (hreject : ∀ key text, (s.openEnvelope B c m).plain = some (key, text) →
      ¬ s.RatchetAccepts P m text) :
    SessionKept c s (s.handleSelected P B c m) := by
  rw [handleSelected]
  by_cases hquse : s.quseSent c = true
  · rw [if_pos hquse]
    exact SessionKept.of_same c rfl rfl rfl
  · rw [if_neg hquse, if_pos hdone]
    have hlearned : SessionKept c s (s.learnSenderKey (s.openEnvelope B c m)) :=
      SessionKept.of_same c rfl rfl rfl
    dsimp only
    cases hplain : (s.openEnvelope B c m).plain with
    | some opened =>
      obtain ⟨key, text⟩ := opened
      exact hlearned.trans (smpAgentProcessMessage_kept P (s.learnSenderKey (s.openEnvelope B c m))
        hc hactive hhand m text (hreject key text hplain))
    | none =>
      have hinvitation : (s.learnSenderKey (s.openEnvelope B c m)).fallbackInvitation B c m = none :=
        hfallback (Bool.eq_false_iff.2 hquse) hplain
      dsimp only
      rw [fallback, hinvitation]
      exact hlearned

/-- A message keeps the session of a contact that is set up when it is harmless and not the
contact's. -/
theorem appHandleContactQueueMsg_kept (P : Primitives K) (B : Boxes) (s : ContactQueueTask K)
    {c : ℕ} (hc : c < maxContacts) (hactive : s.dev.activeHandshakeIdx < maxContacts)
    (m : QueueMsg) (hharmless : s.Harmless P B (.contactMsg c hc m))
    (hdone : s.done42d c = true) (hother : ¬ s.FromContact P B c m) :
    SessionKept c s (s.appHandleContactQueueMsg P B c m) := by
  obtain ⟨hstored, hfallback, hforeign⟩ := hharmless hdone
  obtain ⟨-, hidx, hhand, -, hcontacts, -⟩ := s.select_spec hc hactive
  rw [appHandleContactQueueMsg]
  by_cases hshort : (s.dev.contacts c).haveSrvDh = 0 ∨ m.msg.encrypted.length ≤ 16
  · rw [if_pos hshort]
    exact SessionKept.of_same c rfl rfl rfl
  · rw [if_neg hshort]
    refine (s.select_kept hc hactive hstored).trans
      (handleSelected_kept P B (s.select c) hc hidx hhand m hdone ?_ ?_)
    · intro hquse hplain
      rw [fallbackInvitation, hcontacts]
      exact hfallback hquse hplain
    · intro key text hplain haccepts
      by_cases hkey : key = s.peerE2e c
      · exact hother ⟨text, hkey ▸ hplain, haccepts⟩
      · exact hforeign key text hplain hkey haccepts

/-! ### The active entry stays one of the table -/

/-- Making a ratchet leaves the active entry. -/
theorem confirmWithKeys_active (P : Primitives K) (s : ContactQueueTask K) (idx : ℕ)
    (env : ConfirmEnv) (lands : ℕ → Bool) (info : List UInt8) (key1 key2 : X448KeyPair) :
    (s.confirmWithKeys P idx env lands info key1 key2).dev.activeHandshakeIdx =
      s.dev.activeHandshakeIdx := by
  rw [confirmWithKeys]
  dsimp only
  cases ratchetX3dhSender P s.pendingPeer.e2eKey1 s.pendingPeer.e2eKey2 key1 key2
      s.dev.ratchetState with
  | none => rfl
  | some st =>
    dsimp only
    rcases ratchetInitSender P s.pendingPeer.e2eKey2 key2 st with ⟨_ | _, st'⟩
    · rfl
    · dsimp only
      split_ifs <;> rfl

/-- A confirmation is made for a slot of the table. -/
theorem confirmationSlot_lt (s : ContactQueueTask K) (c : ℕ) : s.confirmationSlot c < maxContacts := by
  rw [confirmationSlot]
  split_ifs with h
  · exact h.1
  · decide

/-- Selecting a slot of the table makes its entry the active one. -/
theorem select_active (s : ContactQueueTask K) {c : ℕ} (hc : c < maxContacts) :
    (s.select c).dev.activeHandshakeIdx = c :=
  (handshakeSetActive_active (s.dev.ratchetSetActive c) hc).2.2

/-- A confirmation leaves an active entry of the table. -/
theorem sendAgentConfirmation_active (P : Primitives K) (s : ContactQueueTask K) (c : ℕ)
    (env : ConfirmEnv) (lands : ℕ → Bool) (hactive : s.dev.activeHandshakeIdx < maxContacts) :
    (s.sendAgentConfirmation P c env lands).dev.activeHandshakeIdx < maxContacts := by
  have hslot := s.confirmationSlot_lt c
  have hselected := s.select_active hslot
  rw [sendAgentConfirmation]
  cases env.queueInfo with
  | none => split_ifs <;> exact hactive
  | some info =>
    cases env.keys with
    | none => split_ifs <;> exact hactive
    | some keys =>
      dsimp only
      split_ifs
      · exact hactive
      · exact hactive
      · rwa [hselected]
      · rwa [confirmWithKeys_active, hselected]

/-- A message leaves an active entry of the table. -/
theorem appHandleContactQueueMsg_active (P : Primitives K) (B : Boxes) (s : ContactQueueTask K)
    {c : ℕ} (hc : c < maxContacts) (m : QueueMsg)
    (hactive : s.dev.activeHandshakeIdx < maxContacts) :
    (s.appHandleContactQueueMsg P B c m).dev.activeHandshakeIdx < maxContacts := by
  have hfallback : ∀ t : ContactQueueTask K, t.dev.activeHandshakeIdx < maxContacts →
      (t.fallback P B c m).dev.activeHandshakeIdx < maxContacts := by
    intro t ht
    rw [fallback]
    cases t.fallbackInvitation B c m with
    | none => exact ht
    | some uri =>
      dsimp only
      rw [takeInvitation]
      dsimp only
      split_ifs
      · refine sendAgentConfirmation_active P _ c m.confirm m.lands ?_
        rwa [(ratchetSetActive_active t.dev hc).2.2]
      · exact ht
  have hselected : (s.select c).dev.activeHandshakeIdx < maxContacts := by
    rwa [s.select_active hc]
  rw [appHandleContactQueueMsg]
  split_ifs
  · exact hactive
  · rw [handleSelected]
    split_ifs
    · exact hselected
    · dsimp only
      cases ((s.select c).openEnvelope B c m).plain with
      | none => exact hfallback _ hselected
      | some opened =>
        dsimp only
        rw [smpAgentProcessMessage]
        cases ermOf (memOf opened.2 m.e2eJunk) opened.2.length
            ((s.select c).learnSenderKey
              ((s.select c).openEnvelope B c m)).dev.ratchetState.initialized <;>
          exact hselected
    · exact hfallback _ hselected

/-! ### Runs -/

/-- In a run whose messages are harmless, no message touches the session of a contact that is
set up, unless it comes from the contact. -/
theorem contact_queue_keeps_sessions (P : Primitives K) (B : Boxes) (s : ContactQueueTask K)
    (steps : List (ContactQueueStep K)) (hactive : s.dev.activeHandshakeIdx < maxContacts)
    (hharmless : StepsMeet (step P B) (fun s => s.Harmless P B) s steps) :
    StepsMeet (step P B) (fun s => s.KeepsSession P B) s steps := by
  have hstep : ∀ (t : ContactQueueTask K) (a : ContactQueueStep K),
      t.dev.activeHandshakeIdx < maxContacts → t.Harmless P B a →
        (t.step P B a).dev.activeHandshakeIdx < maxContacts := by
    intro t a ht _
    cases a with
    | contactMsg c hc m => exact t.appHandleContactQueueMsg_active P B hc m ht
    | rest next hnext => exact hnext
  have hkeeps : ∀ (t : ContactQueueTask K) (a : ContactQueueStep K),
      t.dev.activeHandshakeIdx < maxContacts → t.Harmless P B a → t.KeepsSession P B a := by
    intro t a ht hcond
    cases a with
    | contactMsg c hc m =>
      intro hdone _ hother
      exact t.appHandleContactQueueMsg_kept P B hc ht m hcond hdone hother
    | rest next hnext => trivial
  exact hharmless.invariant_step hstep hkeeps hactive

/-! ### An invitation to a contact that is set up -/

end ContactQueueTask

/-- Boxes that open whatever has a tag of 16 bytes in front. -/
def tagBoxes : Boxes where
  boxPublic := id
  beforenm := fun _ _ => some (zeroBytes 32)
  scalarmult := fun _ _ => some (zeroBytes 32)
  boxOpenAfternm := fun _ _ cipher => if 16 ≤ cipher.length then some (cipher.drop 16) else none
  boxOpen := fun _ _ _ cipher => if 16 ≤ cipher.length then some (cipher.drop 16) else none
  secretboxOpen := fun _ _ cipher => if 16 ≤ cipher.length then some (cipher.drop 16) else none
  simplexSecretboxOpen := fun _ _ cipher =>
    if 16 ≤ cipher.length then some (cipher.drop 16) else none

/-- A device with one contact, whose handshake is done. -/
def settledContact : ContactQueueTask SymKey where
  dev := { ContactDevice.blank symbolic with
    contacts := fun _ => { Contact.zero with haveSrvDh := 1, active := 1 }
    numContacts := 1 }
  pendingPeer := .zero
  recvPq := none
  pqEnabled := false
  done42d := fun c => c = 0
  quseSent := fun _ => false
  cqE2ePeer := none
  rotationCqPeer := none
  peerE2e := fun _ => zeroBytes 32

/-- A message whose server layer holds a key and, boxed for it, a text. -/
def keyedMsg (text : List UInt8) : QueueMsg where
  msg :=
    { encrypted := List.replicate 16 0 ++ [0, 0] ++ RotationDevice.x25519SpkiHdr ++
        List.replicate 32 7 ++ List.replicate 24 0 ++ List.replicate 16 0 ++ text
      msgId := List.replicate 24 1 }
  envelope := ⟨true, fun _ => 0, true, true⟩
  e2eJunk := fun _ => 0
  receive := ⟨true, fun _ => 0, true, fun _ => 0, sampleDraws⟩
  lands := fun _ => true
  plainAlloc := true
  decryptedAlloc := true
  parse := ⟨true, []⟩
  connects := true
  confirm := ⟨true, none, [], none, true, false, true⟩

/-- The text of an agent message. -/
def agentMessageText : List UInt8 := [0x5F, 0x00, 0x07, 0x4D, 104, 105]

/-- The text of an agent's invitation. -/
def invitationText : List UInt8 := [0x5F, 0x00, 0x07, 0x49] ++ invitationWithoutDh

namespace ContactQueueTask

set_option maxRecDepth 8192 in
/-- The E2E layer of such messages does not open. -/
theorem keyedMsg_not_opened : ∀ text ∈ [agentMessageText, invitationText],
    ((settledContact.select 0).openEnvelope tagBoxes 0 (keyedMsg text)).plain = none := by
  have hnone : ∀ text ∈ [agentMessageText, invitationText],
      ((settledContact.select 0).openEnvelope tagBoxes 0 (keyedMsg text)).plain.isNone = true := by
    decide
  exact fun text htext => Option.isNone_iff_eq_none.1 (hnone text htext)

set_option maxRecDepth 8192 in
/-- Whoever can send to the queue of a contact that is set up can replace its peer queue with an
invitation. -/
theorem invitation_replaces_peer_queue :
    ¬ ∀ (s : ContactQueueTask SymKey) (steps : List (ContactQueueStep SymKey)),
      s.dev.activeHandshakeIdx < maxContacts →
        StepsMeet (step symbolic tagBoxes) (fun s => s.KeepsSession symbolic tagBoxes) s steps := by
  intro h
  have hkeeps := (h settledContact [.contactMsg 0 (by decide) (keyedMsg invitationText)]
    (by decide)).1 rfl (by decide) ?_
  · have hvalid : (settledContact.appHandleContactQueueMsg symbolic tagBoxes 0
        (keyedMsg invitationText)).pendingPeer.valid = settledContact.pendingPeer.valid :=
      congrArg PeerQueue.valid hkeeps.pendingPeer
    revert hvalid
    decide
  · rintro ⟨text, hopened, -⟩
    rw [keyedMsg_not_opened _ (by simp)] at hopened
    cases hopened

set_option maxRecDepth 8192 in
/-- A text that is no invitation is harmless, and leaves the session of a contact that is set
up. -/
theorem contact_queue_keeps_sessions_plain :
    StepsMeet (step symbolic tagBoxes) (fun s => s.KeepsSession symbolic tagBoxes) settledContact
      [.contactMsg 0 (by decide) (keyedMsg agentMessageText)] := by
  have hharmless : StepsMeet (step symbolic tagBoxes)
      (fun s => s.Harmless symbolic tagBoxes) settledContact
      [.contactMsg 0 (by decide) (keyedMsg agentMessageText)] := by
    refine ⟨fun _ => ⟨fun _ => Or.inl rfl, fun _ _ => ?_, fun key text hopened => ?_⟩, trivial⟩
    · have hnone : (settledContact.fallbackInvitation tagBoxes 0
          (keyedMsg agentMessageText)).isNone = true := by decide
      exact Option.isNone_iff_eq_none.1 hnone
    · rw [keyedMsg_not_opened _ (by simp)] at hopened
      cases hopened
  exact contact_queue_keeps_sessions symbolic tagBoxes settledContact _ (by decide) hharmless

end ContactQueueTask

end SimpleGo
