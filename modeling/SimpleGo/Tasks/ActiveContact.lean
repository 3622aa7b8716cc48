import SimpleGo.Contacts.RatchetSlots
import SimpleGo.Tasks.ContactQueue

/-!
# The active contact of two tasks

The ratchet, the handshake entries and the peer queue each have one active slot, set by calls of
its own. The app task sets them when it takes up a message for a contact and again before each
send; `smp_set_active_contact`, called by the UI when a chat is opened, sets the first two. There
is no lock, so a call of the UI can come between any two calls of the app task. A KEM request
that has timed out is carried out by the crypto task on the ratchet that is active by then.

`SwitchTasks` runs the two tasks as lists of calls, with the late requests between and in the
calls. A handling keeps to its contact as long as the UI selects another one only while no
selection is awaiting its use, and each late request finds the contact it was made for.
-/

namespace SimpleGo

open Lib

variable {K : Type}

/-! ### The calls -/

/-- A call of the app task while it handles a message of a contact. -/
inductive ContactCall where
  /-- `ratchet_set_active`. -/
  | ratchetSetActive
  /-- `handshake_set_active`. -/
  | handshakeSetActive
  /-- `peer_load_state`, with the check of the contact before it. -/
  | peerLoadState
  /-- The parsing of an invitation into `pending_peer`. -/
  | parseInvitation (stack uri : List UInt8)
  /-- `ratchet_header_try_decrypt`. -/
  | tryHeader
  /-- `ratchet_decrypt_body` or `ratchet_encrypt`. -/
  | ratchet (call : RatchetCall) (lands : ℕ → Bool)
  /-- `ratchet_x3dh_sender`. -/
  | x3dhSender (ourKey1 ourKey2 : X448KeyPair)
  /-- `ratchet_init_sender`. -/
  | initSender (ourKey2 : X448KeyPair) (lands : ℕ → Bool)
  /-- A builder of an agent message counts the message id up. -/
  | buildMessage
  /-- The box is closed with the peer's key and the block is written for the peer's queue. -/
  | writeBlock
  /-- A block that was not written is kept with the active slot, to be written again. -/
  | saveRetry
  /-- `prev_msg_hash` is set, and saved. -/
  | setPrevMsgHash (hash : Bytes 32) (lands : Bool)
  /-- `complete_handshake`. -/
  | completeHandshake
  /-- `handshake_get_last_msg_id`. -/
  | getLastMsgId
  /-- `peer_save_state`. -/
  | peerSaveState (lands : Bool)
  /-- The contact becomes the one whose chat is shown. -/
  | showContact

namespace ContactCall

/-- The calls that read or change the active ratchet. -/
def usesRatchet : ContactCall → Bool
  | tryHeader | ratchet _ _ | x3dhSender _ _ | initSender _ _ => true
  | _ => false

/-- The calls that read or change the active handshake entry. -/
def usesHandshake : ContactCall → Bool
  | buildMessage | saveRetry | setPrevMsgHash _ _ | completeHandshake | getLastMsgId => true
  | _ => false

/-- The calls that read `pending_peer`. -/
def usesPeer : ContactCall → Bool
  | x3dhSender _ _ | initSender _ _ | writeBlock | peerSaveState _ => true
  | _ => false

def selectsRatchet : ContactCall → Bool
  | ratchetSetActive => true
  | _ => false

def selectsHandshake : ContactCall → Bool
  | handshakeSetActive => true
  | _ => false

def selectsPeer : ContactCall → Bool
  | peerLoadState | parseInvitation _ _ => true
  | _ => false

/-- The KEM requests that are carried out late in a call. -/
def late : ContactCall → List LateRequest
  | ratchet call _ => (SessionOp.call call).late
  | _ => []

/-- The calls that work on what was selected. -/
def uses (call : ContactCall) : Bool := call.usesRatchet || call.usesHandshake || call.usesPeer

end ContactCall

/-- The calls use something before they select it. -/
def usesBefore (uses selects : ContactCall → Bool) : List ContactCall → Bool
  | [] => false
  | call :: calls => uses call || (!selects call && usesBefore uses selects calls)

/-- What a `peer_send_*` call encrypts and stores, which saves land, and whether the block has to
be written twice. -/
structure SendData where
  encrypt : RatchetCall
  lands : ℕ → Bool
  retried : Bool
  hash : Bytes 32
  hashLands : Bool

/-- The calls of a `peer_send_*` function: `peer_prepare_for_contact`, the message, and the
server's answer. -/
def SendData.calls (send : SendData) : List ContactCall :=
  [.peerLoadState, .ratchetSetActive, .handshakeSetActive, .buildMessage,
    .ratchet send.encrypt send.lands, .writeBlock] ++
  (if send.retried then [.saveRetry, .writeBlock] else []) ++
  [.setPrevMsgHash send.hash send.hashLands]

/-- What the app task takes up for a contact. -/
inductive Handling where
  /-- A MSG on one of the contact's queues, answered with a receipt or not. -/
  | message (decrypt : RatchetCall) (lands : ℕ → Bool) (receipt : Option SendData)
  /-- A typed text. -/
  | chat (send : SendData)
  /-- The HELLO of the handshake, or QADD or QUSE of a rotation. -/
  | agentMessage (rotation : Bool) (send : SendData)
  /-- An invitation in a message, answered with a confirmation. -/
  | invitation (stack uri : List UInt8) (ourKey1 ourKey2 : X448KeyPair) (initLands : ℕ → Bool)
      (encrypt : RatchetCall) (lands : ℕ → Bool) (peerLands : Bool)
  /-- The handshake is finished. -/
  | connected

/-- The calls of a handling that goes through. -/
def Handling.calls : Handling → List ContactCall
  | message decrypt lands receipt =>
    [.ratchetSetActive, .handshakeSetActive, .tryHeader, .ratchet decrypt lands] ++
      receipt.elim [] SendData.calls
  | chat send => send.calls ++ [.getLastMsgId]
  | agentMessage rotation send =>
    (if rotation then [.peerLoadState] else []) ++ [.ratchetSetActive, .handshakeSetActive] ++
      send.calls
  | invitation stack uri ourKey1 ourKey2 initLands encrypt lands peerLands =>
    [.ratchetSetActive, .handshakeSetActive, .parseInvitation stack uri, .ratchetSetActive,
      .ratchetSetActive, .handshakeSetActive, .x3dhSender ourKey1 ourKey2,
      .initSender ourKey2 initLands, .ratchet encrypt lands, .writeBlock, .completeHandshake,
      .peerSaveState peerLands]
  | connected => [.showContact]

/-- A call of `smp_set_active_contact`, run by the UI. -/
inductive UiCall where
  | ratchetSetActive (idx : ℕ)
  | handshakeSetActive (idx : ℕ)
  deriving DecidableEq

/-! ### Both tasks -/

/-- The device with the calls that the app task and the UI still have to make. -/
structure SwitchTasks (K : Type) where
  dev : ContactDevice K
  pendingPeer : PeerQueue
  /-- All of `pending_peer` belongs to this contact. -/
  peerOf : ℕ → Prop
  /-- `s_active_contact_idx`. -/
  activeContact : ℕ
  /-- The contact the app task is handling. -/
  handled : ℕ
  appCalls : List ContactCall
  uiCalls : List UiCall

/-- A step of one of the tasks, or of the crypto task. -/
inductive SwitchStep where
  /-- The app task takes something up. -/
  | handle (c : ℕ) (h : Handling)
  /-- Its next call, after which it goes on or returns early. -/
  | app (goesOn : Bool)
  /-- The UI calls `smp_set_active_contact`. -/
  | smpSetActiveContact (idx : ℕ)
  /-- The next call in it. -/
  | ui
  /-- A KEM request is carried out after its caller has given up on it. -/
  | cryptoTask (request : LateRequest)

namespace SwitchTasks

variable (P : Primitives K) (s : SwitchTasks K)

/-- A handling is for a slot of the table. A typed text is for the contact that is shown; its
contact and that of an invitation are in use. -/
def admits (c : ℕ) : Handling → Bool
  | .message _ _ _ | .agentMessage _ _ | .connected => c < maxContacts
  | .chat _ => c < maxContacts && (s.dev.contacts c).isActive && c = s.activeContact
  | .invitation _ _ _ _ _ _ _ _ => c < maxContacts && (s.dev.contacts c).isActive

/-- What a call does to the ratchet. -/
def session (op : SessionOp) (lands : ℕ → Bool) : SwitchTasks K :=
  { s with dev := s.dev.storeStep P (.session op lands) }

/-- What a call does to the active handshake entry. -/
def changeHandshake (f : HandshakeEntry → HandshakeEntry) : SwitchTasks K :=
  { s with dev := { s.dev with
      handshakes := Function.update s.dev.handshakes s.dev.activeHandshakeIdx
        (f (s.dev.handshakes s.dev.activeHandshakeIdx)) } }

/-- `handshake_save_state`, which may fail. -/
def saveHandshake (lands : Bool) : SwitchTasks K :=
  if lands then { s with dev := s.dev.handshakeSaveState } else s

/-- A call of the app task, and whether the functions around it can go on. -/
def perform : ContactCall → SwitchTasks K × Bool
  | .ratchetSetActive => ({ s with dev := s.dev.ratchetSetActive s.handled }, true)
  | .handshakeSetActive => ({ s with dev := s.dev.handshakeSetActive s.handled }, true)
  | .peerLoadState =>
    match ContactDevice.peerLoadState s.dev.nvs s.handled with
    | none => (s, false)
    | some p =>
      if (s.dev.contacts s.handled).isActive then
        ({ s with pendingPeer := p, peerOf := fun c => c = s.handled }, true)
      else (s, false)
  | .parseInvitation stack uri =>
    let handled := s.handled
    ({ s with
        pendingPeer := s.pendingPeer.parseUri stack uri
        -- a field the invitation has no value for stays as it was
        peerOf := fun c => c = handled ∧ (SetsEveryField stack uri ∨ s.peerOf c) }, true)
  | .ratchet call lands => (s.session P (.call call) lands, true)
  | .x3dhSender ourKey1 ourKey2 =>
    (s.session P (.x3dhSender s.pendingPeer.e2eKey1 s.pendingPeer.e2eKey2 ourKey1 ourKey2)
      fun _ => true, true)
  | .initSender ourKey2 lands =>
    (s.session P (.initSender s.pendingPeer.e2eKey2 ourKey2) lands, true)
  | .buildMessage => (s.changeHandshake fun e => { e with msgId := e.msgId + 1 }, true)
  | .setPrevMsgHash hash lands =>
    ((s.changeHandshake fun e => { e with prevMsgHash := hash }).saveHandshake lands, true)
  | .completeHandshake => (s.changeHandshake fun _ => .zero, true)
  | .peerSaveState lands =>
    (if s.pendingPeer.valid ≠ 0 ∧ lands then
      { s with dev := { s.dev with
          nvs := s.dev.nvs.put (peerKey s.handled) (.peer s.pendingPeer) } }
      else s, true)
  | .showContact => ({ s with activeContact := s.handled }, true)
  | .tryHeader | .writeBlock | .saveRetry | .getLastMsgId => (s, true)

/-- A step. -/
def step : SwitchStep → SwitchTasks K
  | .handle c h =>
    if s.appCalls = [] ∧ s.admits c h then { s with handled := c, appCalls := h.calls } else s
  | .app goesOn =>
    match s.appCalls with
    | [] => s
    | call :: calls =>
      let out := s.perform P call
      { out.1 with appCalls := if out.2 && goesOn then calls else [] }
  | .smpSetActiveContact idx =>
    if s.uiCalls = [] ∧ idx < maxContacts ∧ (s.dev.contacts idx).isActive then
      { s with
        activeContact := idx
        uiCalls := [.ratchetSetActive idx, .handshakeSetActive idx] }
    else s
  | .ui =>
    match s.uiCalls with
    | [] => s
    | .ratchetSetActive idx :: calls =>
      { s with dev := s.dev.ratchetSetActive idx, uiCalls := calls }
    | .handshakeSetActive idx :: calls =>
      { s with dev := s.dev.handshakeSetActive idx, uiCalls := calls }
  | .cryptoTask request => s.session P (.call (.cryptoTask [request])) fun _ => true

/-! ### Agreement -/

/-- What a call must find and do: the slots and the credentials of its contact, no change to what
is kept for another one, in NVS or in RAM, and none that was requested for another one. A
selection stays in the table of ratchets. -/
structure CallAgrees (call : ContactCall) : Prop where
  ratchet : call.usesRatchet = true → s.dev.activeRatchetIdx = s.handled
  handshake : call.usesHandshake = true → s.dev.activeHandshakeIdx = s.handled
  peer : call.usesPeer = true → s.peerOf s.handled
  persisted : call.uses = true → ∀ key, key ∉ savedKeys s.handled →
    (s.perform P call).1.dev.nvs key = s.dev.nvs key
  slots : call.uses = true → ∀ j, j ≠ s.handled →
    (s.perform P call).1.dev.slotRatchet j = s.dev.slotRatchet j ∧
      (s.perform P call).1.dev.handshakes j = s.dev.handshakes j
  late : ∀ request ∈ call.late, request.slot = s.handled
  table : call.selectsRatchet = true → ∀ i ∈ s.dev.setActiveAccesses s.handled, i < maxContacts

/-- A step that is a call of the app task agrees with the contact it handles. A selection of the
UI stays in the table, and a late request changes the session it was made for and no other. -/
def Agrees : SwitchStep → Prop
  | .app _ => ∀ call calls, s.appCalls = call :: calls → s.CallAgrees P call
  | .ui => ∀ idx calls, s.uiCalls = .ratchetSetActive idx :: calls →
      ∀ i ∈ s.dev.setActiveAccesses idx, i < maxContacts
  | .cryptoTask request => ∀ j, j ≠ request.slot →
      (s.step P (.cryptoTask request)).dev.slotRatchet j = s.dev.slotRatchet j
  | _ => True

/-- The app task counts on the active ratchet, the active handshake entry or the peer queue. -/
def needsRatchet : Bool := usesBefore ContactCall.usesRatchet ContactCall.selectsRatchet s.appCalls

def needsHandshake : Bool :=
  usesBefore ContactCall.usesHandshake ContactCall.selectsHandshake s.appCalls

def needsPeer : Bool := usesBefore ContactCall.usesPeer ContactCall.selectsPeer s.appCalls

/-- The UI selects another contact only while the app task does not count on a selection, an
invitation has a value for each field, and what is carried out late was requested for the contact
whose ratchet is active. -/
def Quiet : SwitchStep → Prop
  | .handle _ (.invitation stack uri _ _ _ _ _ _) => SetsEveryField stack uri
  | .ui =>
    match s.uiCalls with
    | [] => True
    | .ratchetSetActive idx :: _ => s.needsRatchet = true → idx = s.handled
    | .handshakeSetActive idx :: _ => s.needsHandshake = true → idx = s.handled
  | .app _ => ∀ call calls, s.appCalls = call :: calls →
      ∀ request ∈ call.late, request.slot = s.dev.activeRatchetIdx
  | .cryptoTask request => request.slot = s.dev.activeRatchetIdx
  | _ => True

end SwitchTasks

/-! ### What one call changes -/

/-- A session key is a key of its slot. -/
theorem IsSessionWrite.mem_savedKeys {idx : ℕ} {w : NvsWrite K} (h : IsSessionWrite idx w) :
    w.1 ∈ savedKeys idx := by
  rw [SimpleGo.mem_savedKeys]
  rcases h.2 with hkey | hkey
  · exact Or.inl hkey
  · exact Or.inr (Or.inr (Or.inr (Or.inr (Or.inr hkey))))

/-- An operation on the active session is stored under the keys of its slot. -/
theorem storeStep_session_nvs (P : Primitives K) (dev : ContactDevice K) {op : SessionOp}
    (lands : ℕ → Bool) (htarget : op.target = none) {key : String}
    (hkey : key ∉ savedKeys dev.activeRatchetIdx) :
    (dev.storeStep P (.session op lands)).nvs key = dev.nvs key := by
  apply Store.putAll_of_forall_ne
  rintro w hw rfl
  obtain ⟨idx, hslot, hwrite⟩ := op.isSessionWrite ((Store.landed_sublist ..).subset hw)
  rcases hslot with rfl | hslot
  · exact hkey hwrite.mem_savedKeys
  · rw [htarget] at hslot
    cases hslot

/-- The other sessions in RAM stay. -/
theorem storeStep_session_slotRatchet (P : Primitives K) (dev : ContactDevice K) (op : SessionOp)
    (lands : ℕ → Bool) {j : ℕ} (hj : j ≠ dev.activeRatchetIdx) :
    (dev.storeStep P (.session op lands)).slotRatchet j = dev.slotRatchet j := by
  rw [storeStep_session_slotRatchet_eq, Function.update_of_ne hj]

/-- Only a call on the ratchet has requests carried out in it. -/
theorem ContactCall.usesRatchet_of_late {call : ContactCall} {request : LateRequest}
    (h : request ∈ call.late) : call.usesRatchet = true := by
  cases call with
  | ratchet _ _ => rfl
  | _ => cases h

namespace SwitchTasks

variable (P : Primitives K) (s : SwitchTasks K)

/-- A handshake entry is saved under the key of the active slot. -/
theorem saveHandshake_nvs (lands : Bool) {key : String}
    (hkey : key ≠ handKey s.dev.activeHandshakeIdx) :
    (s.saveHandshake lands).dev.nvs key = s.dev.nvs key := by
  rw [saveHandshake]
  split_ifs
  · exact Store.put_of_ne _ _ hkey
  · rfl

/-- Saving an entry leaves RAM as it is. -/
theorem saveHandshake_ram (lands : Bool) :
    (s.saveHandshake lands).dev.slotRatchet = s.dev.slotRatchet ∧
      (s.saveHandshake lands).dev.handshakes = s.dev.handshakes ∧
      (s.saveHandshake lands).dev.activeRatchetIdx = s.dev.activeRatchetIdx ∧
      (s.saveHandshake lands).dev.activeHandshakeIdx = s.dev.activeHandshakeIdx := by
  rw [saveHandshake]
  split_ifs <;> exact ⟨rfl, rfl, rfl, rfl⟩

/-- A call on the right slots changes nothing of another contact. -/
theorem callAgrees_of_active {call : ContactCall}
    (hratchet : call.usesRatchet = true → s.dev.activeRatchetIdx = s.handled)
    (hhandshake : call.usesHandshake = true → s.dev.activeHandshakeIdx = s.handled)
    (hpeer : call.usesPeer = true → s.peerOf s.handled)
    (hlate : ∀ request ∈ call.late, request.slot = s.dev.activeRatchetIdx)
    (hactive : s.dev.activeRatchetIdx < maxContacts) : s.CallAgrees P call := by
  refine ⟨hratchet, hhandshake, hpeer, fun huses key hkey => ?_, fun huses j hj => ?_,
    fun request hmem => (hlate request hmem).trans (hratchet (ContactCall.usesRatchet_of_late hmem)),
    fun _ => (setActiveAccesses_lt_iff s.dev s.handled).mpr fun _ => hactive⟩
  · have hsession : ∀ (op : SessionOp) (lands : ℕ → Bool), op.target = none →
        s.dev.activeRatchetIdx = s.handled → (s.session P op lands).dev.nvs key = s.dev.nvs key :=
      fun op lands htarget hidx => storeStep_session_nvs P s.dev lands htarget (hidx ▸ hkey)
    have hhand : key ≠ handKey s.handled := fun h => hkey (h ▸ by simp [savedKeys])
    cases call with
    | ratchet call lands => exact hsession _ _ rfl (hratchet rfl)
    | x3dhSender ourKey1 ourKey2 => exact hsession _ _ rfl (hratchet rfl)
    | initSender ourKey2 lands => exact hsession _ _ rfl (hratchet rfl)
    | setPrevMsgHash hash lands =>
      refine saveHandshake_nvs _ lands ?_
      have hidx : s.dev.activeHandshakeIdx = s.handled := hhandshake rfl
      change key ≠ handKey s.dev.activeHandshakeIdx
      rwa [hidx]
    | peerSaveState lands =>
      have hpeerKey : key ≠ peerKey s.handled := fun h => hkey (h ▸ by simp [savedKeys])
      simp only [perform]
      split_ifs
      · exact Store.put_of_ne _ _ hpeerKey
      · rfl
    | ratchetSetActive => cases huses
    | handshakeSetActive => cases huses
    | peerLoadState => cases huses
    | parseInvitation stack uri => cases huses
    | showContact => cases huses
    | _ => rfl
  · have hsession : ∀ (op : SessionOp) (lands : ℕ → Bool), s.dev.activeRatchetIdx = s.handled →
        (s.session P op lands).dev.slotRatchet j = s.dev.slotRatchet j ∧
          (s.session P op lands).dev.handshakes j = s.dev.handshakes j :=
      fun op lands hidx =>
        ⟨storeStep_session_slotRatchet P s.dev op lands (hidx ▸ hj), rfl⟩
    have hchange : ∀ f, s.dev.activeHandshakeIdx = s.handled →
        (s.changeHandshake f).dev.handshakes j = s.dev.handshakes j :=
      fun f hidx => Function.update_of_ne (hidx ▸ hj) ..
    cases call with
    | ratchet call lands => exact hsession _ _ (hratchet rfl)
    | x3dhSender ourKey1 ourKey2 => exact hsession _ _ (hratchet rfl)
    | initSender ourKey2 lands => exact hsession _ _ (hratchet rfl)
    | buildMessage => exact ⟨rfl, hchange _ (hhandshake rfl)⟩
    | completeHandshake => exact ⟨rfl, hchange _ (hhandshake rfl)⟩
    | setPrevMsgHash hash lands =>
      obtain ⟨hslots, hentries, -, -⟩ := saveHandshake_ram
        (s.changeHandshake fun e => { e with prevMsgHash := hash }) lands
      exact ⟨congrFun hslots j, (congrFun hentries j).trans (hchange _ (hhandshake rfl))⟩
    | peerSaveState lands =>
      simp only [perform]
      split_ifs <;> exact ⟨rfl, rfl⟩
    | ratchetSetActive => cases huses
    | handshakeSetActive => cases huses
    | peerLoadState => cases huses
    | parseInvitation stack uri => cases huses
    | showContact => cases huses
    | _ => exact ⟨rfl, rfl⟩

/-- A call of the app task leaves the contact, and the UI's calls. -/
theorem perform_handled (call : ContactCall) :
    (s.perform P call).1.handled = s.handled ∧ (s.perform P call).1.uiCalls = s.uiCalls := by
  have hsave : ∀ (t : SwitchTasks K) (lands : Bool),
      (t.saveHandshake lands).handled = t.handled ∧
        (t.saveHandshake lands).uiCalls = t.uiCalls := by
    intro t lands
    rw [saveHandshake]
    split_ifs <;> exact ⟨rfl, rfl⟩
  cases call with
  | peerLoadState =>
    rw [perform]
    cases ContactDevice.peerLoadState s.dev.nvs s.handled with
    | none => exact ⟨rfl, rfl⟩
    | some p =>
      dsimp only
      split_ifs <;> exact ⟨rfl, rfl⟩
  | setPrevMsgHash hash lands => exact hsave _ lands
  | peerSaveState lands =>
    simp only [perform]
    split_ifs <;> exact ⟨rfl, rfl⟩
  | _ => exact ⟨rfl, rfl⟩

/-- Only a selection of the ratchet changes which one is active, and it takes the contact's. -/
theorem perform_activeRatchet (call : ContactCall) :
    (call.selectsRatchet = false →
        (s.perform P call).1.dev.activeRatchetIdx = s.dev.activeRatchetIdx) ∧
      (call.selectsRatchet = true → s.handled < maxContacts →
        (s.perform P call).1.dev.activeRatchetIdx = s.handled) := by
  cases call with
  | ratchetSetActive =>
    exact ⟨fun h => (Bool.noConfusion h), fun _ hlt => (ratchetSetActive_active s.dev hlt).1⟩
  | handshakeSetActive =>
    refine ⟨fun _ => ?_, fun h => Bool.noConfusion h⟩
    by_cases hlt : s.handled < maxContacts
    · exact (handshakeSetActive_active s.dev hlt).2.1
    · rw [perform, ContactDevice.handshakeSetActive, if_pos (Nat.le_of_not_lt hlt)]
  | peerLoadState =>
    refine ⟨fun _ => ?_, fun h => Bool.noConfusion h⟩
    rw [perform]
    cases ContactDevice.peerLoadState s.dev.nvs s.handled with
    | none => rfl
    | some p =>
      dsimp only
      split_ifs <;> rfl
  | setPrevMsgHash hash lands =>
    exact ⟨fun _ => (saveHandshake_ram _ lands).2.2.1, fun h => Bool.noConfusion h⟩
  | peerSaveState lands =>
    refine ⟨fun _ => ?_, fun h => Bool.noConfusion h⟩
    simp only [perform]
    split_ifs <;> rfl
  | _ => exact ⟨fun _ => rfl, fun h => Bool.noConfusion h⟩

/-- So it is for the handshake entry. -/
theorem perform_activeHandshake (call : ContactCall) :
    (call.selectsHandshake = false →
        (s.perform P call).1.dev.activeHandshakeIdx = s.dev.activeHandshakeIdx) ∧
      (call.selectsHandshake = true → s.handled < maxContacts →
        (s.perform P call).1.dev.activeHandshakeIdx = s.handled) := by
  cases call with
  | handshakeSetActive =>
    exact ⟨fun h => Bool.noConfusion h, fun _ hlt => (handshakeSetActive_active s.dev hlt).2.2⟩
  | ratchetSetActive =>
    refine ⟨fun _ => ?_, fun h => Bool.noConfusion h⟩
    by_cases hlt : s.handled < maxContacts
    · exact (ratchetSetActive_active s.dev hlt).2.2
    · rw [perform, ContactDevice.ratchetSetActive, if_pos (Nat.le_of_not_lt hlt)]
  | peerLoadState =>
    refine ⟨fun _ => ?_, fun h => Bool.noConfusion h⟩
    rw [perform]
    cases ContactDevice.peerLoadState s.dev.nvs s.handled with
    | none => rfl
    | some p =>
      dsimp only
      split_ifs <;> rfl
  | setPrevMsgHash hash lands =>
    exact ⟨fun _ => (saveHandshake_ram _ lands).2.2.2, fun h => Bool.noConfusion h⟩
  | peerSaveState lands =>
    refine ⟨fun _ => ?_, fun h => Bool.noConfusion h⟩
    simp only [perform]
    split_ifs <;> rfl
  | _ => exact ⟨fun _ => rfl, fun h => Bool.noConfusion h⟩

/-- `pending_peer` is changed by a selection that succeeds, to what belongs to the contact. -/
theorem perform_peerOf {call : ContactCall}
    (hparse : ∀ stack uri, call = .parseInvitation stack uri → SetsEveryField stack uri) :
    (call.selectsPeer = false → (s.perform P call).1.peerOf = s.peerOf) ∧
      (call.selectsPeer = true → (s.perform P call).2 = true →
        (s.perform P call).1.peerOf s.handled) := by
  have hsave : ∀ (t : SwitchTasks K) (lands : Bool), (t.saveHandshake lands).peerOf = t.peerOf := by
    intro t lands
    rw [saveHandshake]
    split_ifs <;> rfl
  cases call with
  | peerLoadState =>
    refine ⟨fun h => Bool.noConfusion h, fun _ => ?_⟩
    rw [perform]
    cases ContactDevice.peerLoadState s.dev.nvs s.handled with
    | none => exact fun h => Bool.noConfusion h
    | some p =>
      dsimp only
      split_ifs
      · exact fun _ => rfl
      · exact fun h => nomatch h
  | parseInvitation stack uri =>
    exact ⟨fun h => Bool.noConfusion h, fun _ _ => ⟨rfl, Or.inl (hparse stack uri rfl)⟩⟩
  | setPrevMsgHash hash lands => exact ⟨fun _ => hsave _ lands, fun h => Bool.noConfusion h⟩
  | peerSaveState lands =>
    refine ⟨fun _ => ?_, fun h => Bool.noConfusion h⟩
    simp only [perform]
    split_ifs <;> rfl
  | _ => exact ⟨fun _ => rfl, fun h => Bool.noConfusion h⟩

end SwitchTasks

/-! ### The invariant of a run -/

/-- What comes after a call that is no selection is needed before it. -/
theorem usesBefore_cons {uses selects : ContactCall → Bool} {call : ContactCall}
    {calls : List ContactCall} (h : usesBefore uses selects calls = true)
    (hselects : selects call = false) : usesBefore uses selects (call :: calls) = true := by
  rw [usesBefore, h, hselects]
  simp

/-- A handling selects everything itself. -/
theorem Handling.calls_select (h : Handling) :
    usesBefore ContactCall.usesRatchet ContactCall.selectsRatchet h.calls = false ∧
      usesBefore ContactCall.usesHandshake ContactCall.selectsHandshake h.calls = false ∧
      usesBefore ContactCall.usesPeer ContactCall.selectsPeer h.calls = false := by
  cases h with
  | message decrypt lands receipt => cases receipt <;> exact ⟨rfl, rfl, rfl⟩
  | agentMessage rotation send => cases rotation <;> exact ⟨rfl, rfl, rfl⟩
  | _ => exact ⟨rfl, rfl, rfl⟩

/-- Only the handling of an invitation parses one. -/
theorem Handling.parses {h : Handling} {stack uri : List UInt8}
    (hmem : ContactCall.parseInvitation stack uri ∈ h.calls) :
    ∃ ourKey1 ourKey2 initLands encrypt lands peerLands,
      h = .invitation stack uri ourKey1 ourKey2 initLands encrypt lands peerLands := by
  have hsend : ∀ send : SendData, ContactCall.parseInvitation stack uri ∉ send.calls := by
    intro send
    rw [SendData.calls]
    cases send.retried <;> simp
  cases h with
  | message decrypt lands receipt => cases receipt <;> simp [Handling.calls, hsend] at hmem
  | chat send => simp [Handling.calls, hsend] at hmem
  | agentMessage rotation send => cases rotation <;> simp [Handling.calls, hsend] at hmem
  | connected => simp [Handling.calls] at hmem
  | invitation stack' uri' ourKey1 ourKey2 initLands encrypt lands peerLands =>
    simp only [Handling.calls, List.mem_cons, ContactCall.parseInvitation.injEq, reduceCtorEq,
      List.not_mem_nil, or_false, false_or] at hmem
    obtain ⟨rfl, rfl⟩ := hmem
    exact ⟨_, _, _, _, _, _, rfl⟩

/-- What the pending calls count on is there. -/
structure SwitchInv (s : SwitchTasks K) : Prop where
  ratchet : s.needsRatchet = true → s.dev.activeRatchetIdx = s.handled
  handshake : s.needsHandshake = true → s.dev.activeHandshakeIdx = s.handled
  peer : s.needsPeer = true → s.peerOf s.handled
  active_lt : s.dev.activeRatchetIdx < maxContacts
  handled_lt : s.appCalls ≠ [] → s.handled < maxContacts
  parse : ∀ stack uri, ContactCall.parseInvitation stack uri ∈ s.appCalls →
    SetsEveryField stack uri
  ui_lt : ∀ idx, UiCall.ratchetSetActive idx ∈ s.uiCalls ∨ UiCall.handshakeSetActive idx ∈ s.uiCalls →
    idx < maxContacts

namespace SwitchInv

variable {P : Primitives K} {s : SwitchTasks K}

/-- A task with no calls pending counts on nothing. -/
theorem of_idle (happ : s.appCalls = []) (hui : s.uiCalls = [])
    (hactive : s.dev.activeRatchetIdx < maxContacts) : SwitchInv s where
  ratchet h := by rw [SwitchTasks.needsRatchet, happ] at h; cases h
  handshake h := by rw [SwitchTasks.needsHandshake, happ] at h; cases h
  peer h := by rw [SwitchTasks.needsPeer, happ] at h; cases h
  active_lt := hactive
  handled_lt h := absurd happ h
  parse stack uri h := by rw [happ] at h; cases h
  ui_lt idx h := by rw [hui] at h; rcases h with h | h <;> cases h

/-- The next call of the app task agrees with its contact. -/
theorem agrees (h : SwitchInv s) {call : ContactCall} {calls : List ContactCall}
    (hcalls : s.appCalls = call :: calls)
    (hlate : ∀ request ∈ call.late, request.slot = s.dev.activeRatchetIdx) :
    s.CallAgrees P call := by
  refine s.callAgrees_of_active P ?_ ?_ ?_ hlate h.active_lt
  · intro huses
    exact h.ratchet (by rw [SwitchTasks.needsRatchet, hcalls, usesBefore, huses]; rfl)
  · intro huses
    exact h.handshake (by rw [SwitchTasks.needsHandshake, hcalls, usesBefore, huses]; rfl)
  · intro huses
    exact h.peer (by rw [SwitchTasks.needsPeer, hcalls, usesBefore, huses]; rfl)

/-- A call of the app task keeps the invariant. -/
theorem app (h : SwitchInv s) (goesOn : Bool) : SwitchInv (s.step P (.app goesOn)) := by
  rw [SwitchTasks.step]
  cases hcalls : s.appCalls with
  | nil => exact h
  | cons call calls =>
    obtain ⟨hhandled, hui⟩ := s.perform_handled P call
    have hlt := h.handled_lt (by rw [hcalls]; exact List.cons_ne_nil _ _)
    have hparse : ∀ stack uri, call = .parseInvitation stack uri → SetsEveryField stack uri :=
      fun stack uri he => h.parse stack uri (by rw [hcalls, he]; exact List.mem_cons_self)
    obtain ⟨hratchet, hratchet'⟩ := s.perform_activeRatchet P call
    obtain ⟨hhandshake, hhandshake'⟩ := s.perform_activeHandshake P call
    obtain ⟨hpeer, hpeer'⟩ := s.perform_peerOf P hparse
    have hneeds : ∀ uses selects, usesBefore uses selects
        (if (s.perform P call).2 && goesOn then calls else []) = true →
          (s.perform P call).2 = true ∧ usesBefore uses selects calls = true := by
      intro uses selects hneed
      split_ifs at hneed with hgoes
      · exact ⟨(Bool.and_eq_true _ _ ▸ hgoes).1, hneed⟩
      · cases hneed
    have hsub : ∀ c ∈ (if (s.perform P call).2 && goesOn then calls else []), c ∈ calls := by
      intro c hc
      split_ifs at hc
      · exact hc
      · cases hc
    refine ⟨fun hneed => ?_, fun hneed => ?_, fun hneed => ?_, ?_, fun _ => ?_,
      fun stack uri hmem => ?_, fun idx hmem => ?_⟩
    · have hneed' := (hneeds _ _ hneed).2
      change (s.perform P call).1.dev.activeRatchetIdx = (s.perform P call).1.handled
      rw [hhandled]
      cases hsel : call.selectsRatchet with
      | true => exact hratchet' hsel hlt
      | false =>
        rw [hratchet hsel]
        exact h.ratchet (by rw [SwitchTasks.needsRatchet, hcalls]; exact usesBefore_cons hneed' hsel)
    · have hneed' := (hneeds _ _ hneed).2
      change (s.perform P call).1.dev.activeHandshakeIdx = (s.perform P call).1.handled
      rw [hhandled]
      cases hsel : call.selectsHandshake with
      | true => exact hhandshake' hsel hlt
      | false =>
        rw [hhandshake hsel]
        exact h.handshake
          (by rw [SwitchTasks.needsHandshake, hcalls]; exact usesBefore_cons hneed' hsel)
    · obtain ⟨hok, hneed'⟩ := hneeds _ _ hneed
      change (s.perform P call).1.peerOf (s.perform P call).1.handled
      rw [hhandled]
      cases hsel : call.selectsPeer with
      | true => exact hpeer' hsel hok
      | false =>
        rw [hpeer hsel]
        exact h.peer (by rw [SwitchTasks.needsPeer, hcalls]; exact usesBefore_cons hneed' hsel)
    · change (s.perform P call).1.dev.activeRatchetIdx < maxContacts
      cases hsel : call.selectsRatchet with
      | true => exact (hratchet' hsel hlt).symm ▸ hlt
      | false => exact (hratchet hsel).symm ▸ h.active_lt
    · change (s.perform P call).1.handled < maxContacts
      rwa [hhandled]
    · exact h.parse stack uri (by rw [hcalls]; exact List.mem_cons_of_mem _ (hsub _ hmem))
    · change _ ∈ (s.perform P call).1.uiCalls ∨ _ ∈ (s.perform P call).1.uiCalls at hmem
      rw [hui] at hmem
      exact h.ui_lt idx hmem

/-- A device that differs in what is pending from the UI only, and in its active slots as long
as nothing counts on them. -/
theorem ui_step (h : SwitchInv s) {dev : ContactDevice K} {calls : List UiCall}
    (hactive : dev.activeRatchetIdx < maxContacts)
    (hratchet : s.needsRatchet = true → dev.activeRatchetIdx = s.handled)
    (hhandshake : s.needsHandshake = true → dev.activeHandshakeIdx = s.handled)
    (hcalls : ∀ c ∈ calls, c ∈ s.uiCalls) : SwitchInv { s with dev, uiCalls := calls } where
  ratchet := hratchet
  handshake := hhandshake
  peer := h.peer
  active_lt := hactive
  handled_lt := h.handled_lt
  parse := h.parse
  ui_lt idx hmem := h.ui_lt idx (hmem.imp (hcalls _) (hcalls _))

/-- A step keeps the invariant. -/
theorem step (h : SwitchInv s) {a : SwitchStep} (hquiet : s.Quiet a) : SwitchInv (s.step P a) := by
  cases a with
  | app goesOn => exact h.app goesOn
  | handle c handling =>
    rw [SwitchTasks.step]
    split_ifs with hadmits
    · obtain ⟨hratchet, hhandshake, hpeer⟩ := handling.calls_select
      refine ⟨fun hneed => ?_, fun hneed => ?_, fun hneed => ?_, h.active_lt, fun _ => ?_,
        fun stack uri hmem => ?_, h.ui_lt⟩
      · exact absurd (hneed.symm.trans hratchet) (by decide)
      · exact absurd (hneed.symm.trans hhandshake) (by decide)
      · exact absurd (hneed.symm.trans hpeer) (by decide)
      · have hadm := hadmits.2
        cases handling <;> simp only [SwitchTasks.admits, Bool.and_eq_true, decide_eq_true_eq] at hadm
        · exact hadm
        · exact hadm.1.1
        · exact hadm
        · exact hadm.1
        · exact hadm
      · obtain ⟨ourKey1, ourKey2, initLands, encrypt, lands, peerLands, rfl⟩ :=
          Handling.parses hmem
        exact hquiet
    · exact h
  | smpSetActiveContact idx =>
    rw [SwitchTasks.step]
    split_ifs with hopen
    · refine ⟨h.ratchet, h.handshake, h.peer, h.active_lt, h.handled_lt, h.parse,
        fun j hmem => ?_⟩
      simp only [List.mem_cons, UiCall.ratchetSetActive.injEq, UiCall.handshakeSetActive.injEq,
        reduceCtorEq, List.not_mem_nil, or_false, false_or, or_self] at hmem
      rw [hmem]
      exact hopen.2.1
    · exact h
  | ui =>
    rw [SwitchTasks.step]
    cases hcalls : s.uiCalls with
    | nil => exact h
    | cons call calls =>
      have htail : ∀ c ∈ calls, c ∈ s.uiCalls := fun c hc => hcalls ▸ List.mem_cons_of_mem _ hc
      cases call with
      | ratchetSetActive idx =>
        have hlt := h.ui_lt idx (Or.inl (by rw [hcalls]; exact List.mem_cons_self))
        obtain ⟨hactive, -, hentry⟩ := ratchetSetActive_active s.dev hlt
        simp only [SwitchTasks.Quiet, hcalls] at hquiet
        refine h.ui_step (hactive.symm ▸ hlt) (fun hneed => ?_) (fun hneed => ?_) htail
        · rw [hactive, hquiet hneed]
        · rw [hentry, h.handshake hneed]
      | handshakeSetActive idx =>
        have hlt := h.ui_lt idx (Or.inr (by rw [hcalls]; exact List.mem_cons_self))
        obtain ⟨-, hratchet, hactive⟩ := handshakeSetActive_active s.dev hlt
        simp only [SwitchTasks.Quiet, hcalls] at hquiet
        refine h.ui_step (hratchet.symm ▸ h.active_lt) (fun hneed => ?_) (fun hneed => ?_) htail
        · rw [hratchet, h.ratchet hneed]
        · rw [hactive, hquiet hneed]
  | cryptoTask request =>
    exact ⟨h.ratchet, h.handshake, h.peer, h.active_lt, h.handled_lt, h.parse, h.ui_lt⟩

end SwitchInv

/-- In every interleaving in which the UI selects another contact only while no selection of the
app task awaits its use, and late requests find their contact, each call for a contact works on
its slots and credentials, and changes only what is kept for it. -/
theorem calls_agree_with_contact (P : Primitives K) {s : SwitchTasks K} {steps : List SwitchStep}
    (happ : s.appCalls = []) (hui : s.uiCalls = [])
    (hactive : s.dev.activeRatchetIdx < maxContacts)
    (h : StepsMeet (SwitchTasks.step P) SwitchTasks.Quiet s steps) :
    StepsMeet (SwitchTasks.step P) (SwitchTasks.Agrees P) s steps := by
  refine h.invariant_step (fun _ _ hinv hquiet => hinv.step hquiet) ?_
    (SwitchInv.of_idle happ hui hactive)
  intro s a hinv hquiet
  cases a with
  | app goesOn => exact fun call calls hcalls => hinv.agrees hcalls (hquiet call calls hcalls)
  | ui =>
    exact fun idx _ _ => (setActiveAccesses_lt_iff s.dev idx).mpr fun _ => hinv.active_lt
  | cryptoTask request =>
    intro j hj
    have hslot : request.slot = s.dev.activeRatchetIdx := hquiet
    exact storeStep_session_slotRatchet P s.dev _ _ (hslot ▸ hj)
  | _ => trivial

/-- Two contacts, and nothing pending. -/
def twoContacts : SwitchTasks SymKey where
  dev := { ContactDevice.blank symbolic with contacts := fun _ => { Contact.zero with active := 1 } }
  pendingPeer := .zero
  peerOf := fun _ => False
  activeContact := 0
  handled := 0
  appCalls := []
  uiCalls := []

/-- A message without a receipt. -/
def plainMessage : Handling :=
  .message (.decrypt false sampleDraws none (sampleCall (zeroBytes 16))) (fun _ => true) none

/-- The chat of the contact whose message is handled is opened meanwhile, and a key pair that was
asked for it comes late. -/
theorem calls_agree_with_contact_same :
    StepsMeet (SwitchTasks.step symbolic) (SwitchTasks.Agrees symbolic) twoContacts
      [.handle 1 plainMessage, .app true, .app true, .smpSetActiveContact 1, .ui, .app true,
        .app true, .cryptoTask (.keygen 1 (symbolicKemPair 5))] := by
  refine calls_agree_with_contact symbolic rfl rfl (by decide)
    ⟨trivial, ?_, ?_, trivial, fun _ => rfl, ?_, ?_, rfl, trivial⟩
  all_goals
    rintro call calls hcalls request hmem
    cases hcalls
    cases hmem

/-- Two runs that fail. The chat of another contact is opened between the selection and the
decryption: the message for contact 0 is tried with the ratchet of contact 1. And the key pair
asked for contact 0 comes when contact 1 is in use: it lands in the session of contact 1. -/
theorem opened_chat_takes_ratchet :
    ¬ StepsMeet (SwitchTasks.step symbolic) (SwitchTasks.Agrees symbolic) twoContacts
      [.handle 0 plainMessage, .app true, .app true, .smpSetActiveContact 1, .ui, .app true] ∧
    ¬ StepsMeet (SwitchTasks.step symbolic) (SwitchTasks.Agrees symbolic) twoContacts
      [.smpSetActiveContact 1, .ui, .cryptoTask (.keygen 0 (symbolicKemPair 5))] := by
  constructor
  · rintro ⟨-, -, -, -, -, hagrees, -⟩
    have hratchet := (hagrees .tryHeader _ rfl).ratchet rfl
    exact absurd hratchet (by decide)
  · rintro ⟨-, -, hagrees, -⟩
    have hkey := congrArg (fun st => st.pq.ownKemPk[0]) (hagrees 1 (by decide))
    exact absurd hkey (by decide)

end SimpleGo
