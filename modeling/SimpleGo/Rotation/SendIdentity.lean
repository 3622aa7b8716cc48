import SimpleGo.Rotation.MessageLoss
import SimpleGo.Rotation.Pass
import SimpleGo.Rotation.Persistence

/-!
# The keys that messages to a contact are sent with

The peer's queue was secured with the keys of the device's own queue at the time, and it does
not move in a rotation. So the first live switch keeps those keys aside, and the send
functions use them from then on. They do so only for a valid reply queue, while
`rotation_complete` makes every reply queue valid: a contact that had none is sent to with
other keys afterwards.
-/

namespace SimpleGo

open Lib

/-- The keys of a SEND: the one that signs it and those of the body's encryption. -/
structure PeerSendKeys where
  authPrivate : Bytes 64
  ourDhPrivate : Bytes 32
  ourDhPublic : Bytes 32
  deriving DecidableEq

/-- The keys for a contact with a valid reply queue: those kept aside, or those it receives
with. -/
def PeerSendKeys.ofReplyQueue (contact : Contact) (rq : ReplyQueue) : PeerSendKeys where
  authPrivate := if rq.hasPeerAuth then rq.peerAuthPrivate else rq.rcvAuthPrivate
  ourDhPrivate := if rq.hasPeerDh then rq.peerDhSecret else contact.rcvDhSecret
  ourDhPublic := if rq.hasPeerDh then rq.peerDhPublic else contact.rcvDhPublic

/-- The first move keeps the keys aside, and no later one changes them. -/
theorem PeerSendKeys.ofReplyQueue_migrate (contact moved : Contact) (rq : ReplyQueue)
    (rd : RotationContactData) :
    ofReplyQueue moved (rq.migrate contact rd) = ofReplyQueue contact rq := by
  simp only [ofReplyQueue, ReplyQueue.migrate, if_true]

namespace RotationDevice

variable {X : Sodium} (dev : RotationDevice) (idx : ℕ)

/-- How the send functions choose their keys for a contact. -/
def peerSendKeys : PeerSendKeys :=
  let contact := dev.contacts idx
  let rq := dev.replyQueues idx
  if idx < maxContacts ∧ rq.valid then .ofReplyQueue contact rq
  else ⟨dev.ourQueue.rcvAuthPrivate, contact.rcvDhSecret, contact.rcvDhPublic⟩

/-- The keys of `peer_send_hello`. -/
def peerSendHello : PeerSendKeys := dev.peerSendKeys idx

/-- The keys of `peer_send_chat_message`. -/
def peerSendChatMessage : PeerSendKeys := dev.peerSendKeys idx

/-- The keys of `peer_send_receipt`. -/
def peerSendReceipt : PeerSendKeys := dev.peerSendKeys idx

/-- The keys of `peer_send_raw_agent_msg`. -/
def peerSendRawAgentMsg : PeerSendKeys := dev.peerSendKeys idx

/-- The four send functions. -/
def sendKeys : List PeerSendKeys :=
  [dev.peerSendHello idx, dev.peerSendChatMessage idx, dev.peerSendReceipt idx,
    dev.peerSendRawAgentMsg idx]

/-- The condition on a live switch: the contacts that it moves have a valid reply queue. -/
def QueuesValid (dev : RotationDevice) : RotationLabel → Prop
  | .appStep env => dev.SwitchesNow env → ∀ i ∈ dev.activeSlots, (dev.replyQueues i).valid = true
  | _ => True

instance (dev : RotationDevice) : (label : RotationLabel) → Decidable (dev.QueuesValid label)
  | .appStep env =>
    inferInstanceAs (Decidable (dev.SwitchesNow env → ∀ i ∈ dev.activeSlots, _))
  | .start .. | .contactMsg .. | .replyMsg .. | .addContact .. | .confirm _ | .abort | .reboot _ =>
    isTrue trivial

variable {dev idx} {dev' : RotationDevice}

/-- The keys are those of the contact, of its reply queue and of our queue. -/
theorem SameCredentials.peerSendKeys (h : SameCredentials dev dev') (idx : ℕ) :
    dev'.peerSendKeys idx = dev.peerSendKeys idx := by
  rw [RotationDevice.peerSendKeys, RotationDevice.peerSendKeys, h.contacts, h.replyQueues,
    h.ourQueue]

/-- With a valid reply queue. -/
theorem peerSendKeys_of_valid (hidx : idx < maxContacts)
    (hvalid : (dev.replyQueues idx).valid = true) :
    dev.peerSendKeys idx = .ofReplyQueue (dev.contacts idx) (dev.replyQueues idx) :=
  if_pos ⟨hidx, hvalid⟩

/-- Without a valid reply queue the device's own queue signs. -/
theorem peerSendKeys_of_invalid (hvalid : (dev.replyQueues idx).valid = false) :
    dev.peerSendKeys idx = ⟨dev.ourQueue.rcvAuthPrivate, (dev.contacts idx).rcvDhSecret,
      (dev.contacts idx).rcvDhPublic⟩ :=
  if_neg fun h => absurd (h.2.symm.trans hvalid) (by simp)

/-- A live switch of a contact with a valid reply queue keeps its keys. -/
theorem rotationComplete_peerSendKeys (hmig : dev.migrates idx = true)
    (hvalid : (dev.replyQueues idx).valid = true) :
    dev.rotationComplete.peerSendKeys idx = dev.peerSendKeys idx := by
  have hidx := (migrates_iff.1 hmig).1
  have hqueue : dev.rotationComplete.replyQueues idx =
      (dev.replyQueues idx).migrate (dev.contacts idx) (dev.record idx) := by
    rw [rotationComplete_replyQueues, migrateCredentials_replyQueues hmig]
  rw [peerSendKeys_of_valid hidx hvalid, peerSendKeys_of_valid hidx (by rw [hqueue]; rfl), hqueue,
    PeerSendKeys.ofReplyQueue_migrate]

/-- A pass of the loop keeps the keys of every contact in use. -/
theorem appRotationStep_peerSendKeys (hsaved : dev.Saved) {env : ℕ → ContactEnv}
    (hcond : dev.QueuesValid (.appStep env)) (hidx : idx < maxContacts)
    (hactive : (dev.contacts idx).isActive = true) :
    (dev.appRotationStep X env).peerSendKeys idx = dev.peerSendKeys idx := by
  rcases appRotationStep_cases (X := X) hsaved.rotation.allocated env with
    ⟨hsame, -⟩ | ⟨hnow, d, hquiet, hmoved, heq⟩
  · exact hsame.peerSendKeys idx
  · have hslot := mem_activeSlots.2 ⟨hidx, hactive⟩
    have hsame : SameCredentials dev { d with completeLogged := true } := by
      rw [hquiet.same]
      exact ⟨rfl, rfl, rfl⟩
    have hmig : RotationDevice.migrates { d with completeLogged := true } idx = true :=
      hmoved idx hslot
    rw [heq, rotationComplete_peerSendKeys hmig, hsame.peerSendKeys idx]
    rw [hsame.replyQueues]
    exact hcond hnow idx hslot

/-- A start-up keeps the keys of every contact in use. -/
theorem boot_peerSendKeys (hsaved : dev.Saved) (created : OurQueue) (hidx : idx < maxContacts)
    (hactive : (dev.contacts idx).isActive = true) :
    (dev.boot created).peerSendKeys idx = dev.peerSendKeys idx := by
  have hqueue := hsaved.boot_replyQueue created hidx
  cases hvalid : (dev.replyQueues idx).valid with
  | true =>
    rw [hvalid, if_pos rfl] at hqueue
    rw [peerSendKeys_of_valid hidx hvalid, peerSendKeys_of_valid hidx (by rw [hqueue, hvalid]),
      hqueue, hsaved.boot_contact created hidx hactive]
  | false =>
    rw [hvalid, if_neg (by simp)] at hqueue
    rw [peerSendKeys_of_invalid hvalid, peerSendKeys_of_invalid (by rw [hqueue]; rfl),
      hsaved.boot_contact created hidx hactive, hsaved.boot_ourQueue created]

/-- A new contact leaves the others alone. -/
theorem addContact_peerSendKeys (keys : ContactDevice.ContactKeys) (ids : ContactDevice.QueueIds)
    (rqKeys : NewQueueKeys) (rqIds : Option NewQueueIds)
    (hactive : (dev.contacts idx).isActive = true) :
    (dev.addContact X keys ids rqKeys rqIds).peerSendKeys idx = dev.peerSendKeys idx ∧
      ((dev.addContact X keys ids rqKeys rqIds).contacts idx).isActive = true := by
  rcases dev.addContact_cases keys ids rqKeys rqIds with heq | ⟨slot, -, hfree, heq⟩
  · rw [heq]
    exact ⟨rfl, hactive⟩
  · have hne : idx ≠ slot := by
      rintro rfl
      exact absurd (hactive.symm.trans hfree) (by simp)
    rw [heq, saveNewContact_eq]
    simp only [peerSendKeys, Function.update_of_ne hne]
    exact ⟨trivial, hactive⟩

/-- A learned key is not one that messages are sent with. -/
theorem learnPeerKey_peerSendKeys (hidx : idx < maxContacts) (i : ℕ) (newPeer : Option (Bytes 32)) :
    (dev.learnPeerKey i newPeer).peerSendKeys idx = dev.peerSendKeys idx := by
  cases newPeer with
  | none => rfl
  | some key =>
    have hqueues : (dev.learnPeerKey i (some key)).replyQueues = Function.update dev.replyQueues i
        { dev.replyQueues i with e2ePeerPublic := key, e2ePeerValid := true } := rfl
    by_cases hsame : idx = i
    · subst hsame
      have hqueue : (dev.learnPeerKey idx (some key)).replyQueues idx =
          { dev.replyQueues idx with e2ePeerPublic := key, e2ePeerValid := true } := by
        rw [hqueues, Function.update_self]
      cases hvalid : (dev.replyQueues idx).valid with
      | true =>
        rw [peerSendKeys_of_valid hidx hvalid, peerSendKeys_of_valid hidx (by rw [hqueue, hvalid]),
          hqueue]
        rfl
      | false =>
        rw [peerSendKeys_of_invalid hvalid, peerSendKeys_of_invalid (by rw [hqueue, hvalid])]
        rfl
    · rw [peerSendKeys, peerSendKeys, hqueues, Function.update_of_ne hsame]
      rfl

/-- A step keeps a contact in use, and the keys that it is sent to with. -/
theorem step_peerSendKeys (hsaved : dev.Saved) {label : RotationLabel}
    (hcond : dev.QueuesValid label) (hidx : idx < maxContacts)
    (hactive : (dev.contacts idx).isActive = true) :
    (dev.step X label).peerSendKeys idx = dev.peerSendKeys idx ∧
      ((dev.step X label).contacts idx).isActive = true := by
  have hsame : ∀ {d : RotationDevice}, SameCredentials dev d →
      d.peerSendKeys idx = dev.peerSendKeys idx ∧ (d.contacts idx).isActive = true := fun h =>
    ⟨h.peerSendKeys idx, by rw [h.contacts]; exact hactive⟩
  cases label with
  | start i srv => exact hsame (.rotationStart i srv)
  | appStep env =>
    refine ⟨appRotationStep_peerSendKeys hsaved hcond hidx hactive, ?_⟩
    rcases appRotationStep_cases (X := X) hsaved.rotation.allocated env with
      ⟨hcred, -⟩ | ⟨-, d, hquiet, -, heq⟩
    · exact (hsame hcred).2
    · rw [step, heq, rotationComplete_contacts, migrateCredentials_isActive, hquiet.same]
      exact hactive
  | contactMsg i env =>
    exact hsame (.msgStep hsaved.rotation.allocated (dev.contactMsg_step X i env))
  | replyMsg i legacy env =>
    obtain ⟨learned, hlearned, hs⟩ := dev.replyMsg_step X i legacy env
    rcases hlearned with rfl | ⟨hi, hvalid, rfl⟩
    · exact hsame (.msgStep hsaved.rotation.allocated hs)
    · have hrecords := (hsaved.learnPeerKey hi hvalid env.newPeer).rotation.allocated
      have hcred := SameCredentials.msgStep hrecords hs
      refine ⟨(hcred.peerSendKeys idx).trans (learnPeerKey_peerSendKeys hidx i env.newPeer), ?_⟩
      rw [hcred.contacts, learnPeerKey_eq]
      exact hactive
  | addContact keys ids rqKeys rqIds => exact addContact_peerSendKeys keys ids rqKeys rqIds hactive
  | confirm i => exact hsame (.sendAgentConfirmation i)
  | abort => exact hsame ⟨rfl, rfl, rfl⟩
  | reboot created =>
    exact ⟨boot_peerSendKeys hsaved created hidx hactive, by
      rw [step, hsaved.boot_isActive created hidx, hactive]⟩

/-- In every run whose live switches move contacts with valid reply queues only, every contact
is sent to with the keys it had at the start. -/
theorem rotation_keeps_send_keys (X : Sodium) (dev : RotationDevice) (hsaved : dev.Saved)
    (labels : List RotationLabel)
    (hcond : StepsMeet (RotationDevice.step X) QueuesValid dev labels) (idx : ℕ)
    (hidx : idx < maxContacts) (hactive : (dev.contacts idx).isActive = true) :
    (runFrom (RotationDevice.step X) dev labels).sendKeys idx = dev.sendKeys idx := by
  have hstep : ∀ (d : RotationDevice) label,
      (d.Saved ∧ d.peerSendKeys idx = dev.peerSendKeys idx ∧ (d.contacts idx).isActive = true) →
      d.QueuesValid label → ((d.step X label).Saved ∧
        (d.step X label).peerSendKeys idx = dev.peerSendKeys idx ∧
        ((d.step X label).contacts idx).isActive = true) := by
    intro d label h hc
    obtain ⟨hkeys, hin⟩ := step_peerSendKeys (X := X) h.1 hc hidx h.2.2
    exact ⟨h.1.step label, hkeys.trans h.2.1, hin⟩
  have hrun := (hcond.invariant hstep ⟨hsaved, rfl, hactive⟩).2.1
  simp only [sendKeys, peerSendHello, peerSendChatMessage, peerSendReceipt, peerSendRawAgentMsg,
    hrun]

set_option maxRecDepth 8192 in
/-- A rotation of one contact keeps its keys. -/
theorem rotation_keeps_send_keys_sample :
    (runFrom (step sampleSodium) (sampleRotation.step sampleSodium (sampleAdd 20))
      (rotationToQuse.tail ++ [samplePass 30])).sendKeys 0 =
        (sampleRotation.step sampleSodium (sampleAdd 20)).sendKeys 0 :=
  rotation_keeps_send_keys sampleSodium _ ((fresh_saved rfl 2).step _) _ (by decide) 0
    (by decide) (by decide)

end RotationDevice

/-- A pass of the loop in which no peer queue can be loaded. -/
def samplePassUnloaded (b : UInt8) : RotationLabel :=
  .appStep fun i => ⟨sampleKeys (b + UInt8.ofNat i), sampleKeys (b + UInt8.ofNat i + 60), true,
    some (sampleIds (b + UInt8.ofNat i)), some (sampleIds (b + UInt8.ofNat i + 60)), false, true,
    .failed⟩

/-- A contact whose reply queue could not be made. -/
def sampleWithoutQueue : RotationDevice :=
  sampleRotation.step sampleSodium (.addContact
    ⟨filled 32 20, filled 64 20, filled 32 20, filled 32 20, filled 32 20⟩
    ⟨filled 24 20, 24, filled 24 20, 24, filled 32 20, 1⟩ (sampleKeys 20) none)

/-- Its rotation: no QADD can be sent to it, but it sends a QKEY. -/
def rotationWithoutQueue : List RotationLabel :=
  [.start 1 sampleTarget, samplePass 30, samplePassUnloaded 30,
    .contactMsg 0 (sampleMsg sampleQkey false), samplePass 30, samplePass 30]

set_option maxRecDepth 8192 in
/-- It is sent to with other keys after its first rotation. -/
theorem rotation_send_keys_counterexample :
    ¬ ∀ (X : Sodium) (dev : RotationDevice), dev.Saved → ∀ labels : List RotationLabel, ∀ idx,
      idx < maxContacts → (dev.contacts idx).isActive = true →
      (runFrom (RotationDevice.step X) dev labels).sendKeys idx = dev.sendKeys idx := by
  intro hkeeps
  have hkeys := hkeeps sampleSodium sampleWithoutQueue
    ((RotationDevice.fresh_saved rfl 2).step _) rotationWithoutQueue 0 (by decide) (by decide)
  exact absurd hkeys (by decide)

end SimpleGo
