import SimpleGo.Agent.Messages
import SimpleGo.Lib.Runs

/-!
# The KEY command

The confirmation of a contact carries the key the contact will sign its messages with. The
App Task keeps it in a global, queues a `NET_CMD_SEND_KEY` for the Network Task, and waits on
a notification bit that is the same for every handshake. Slots are used again for new contacts;
so that keys and queues can be attributed, every contact gets a number of its own.
-/

namespace SimpleGo

open Lib

/-- The sender authentication key of a plaintext that is a confirmation: `handle_confirmation`
takes a key of 44 bytes, whatever the ratchet makes of the rest. -/
def senderAuthKey (plain : Plaintext) : Option (List UInt8) :=
  if plain.len < 3 then none
  else if plain.bytes 2 = 0x4B ∧ plain.bytes 3 = 44 then some (window plain.bytes 4 44)
  else none

/-- A `NET_CMD_SEND_KEY`; `rqSlot` is none for the legacy queue. The number of the handshake,
the contact it is for and the key of that contact's last confirmation are recorded with it. -/
structure KeyCmd where
  rqSlot : Option ℕ
  peerAuthKey : List UInt8
  handshake : ℕ
  contact : ℕ
  ownKey : Option (List UInt8)
  deriving DecidableEq

/-- A command in `app_to_net_buf`; the slot that `add_contact` will find is an input. -/
inductive QueuedCmd where
  | sendKey (cmd : KeyCmd)
  | addContact (slot : Option ℕ)
  | other
  deriving DecidableEq

/-- Where the App Task is in `app_handle_reply_queue_msg`: the number of the handshake whose
`SEND_KEY` is queued, and is waited for. -/
inductive KeyPhase where
  | idle
  | queued (handshake : ℕ)
  | waiting (handshake : ℕ)
  deriving DecidableEq

/-- The handshake that the App Task is in. -/
def KeyPhase.handshake : KeyPhase → Option ℕ
  | .idle => none
  | .queued n | .waiting n => some n

/-- How a wait ended, and whether its own `SEND_KEY` had been answered by then. -/
structure EndedWait where
  handshake : ℕ
  byNotification : Bool
  answered : Bool
  deriving DecidableEq

/-- A KEY command that was written, and the contact whose reply queue it names. -/
structure SentKey where
  queueOf : ℕ
  cmd : KeyCmd
  deriving DecidableEq

/-- The App Task and the Network Task, as far as KEY commands are concerned. -/
structure KeyTasks where
  /-- `s_handshake_contact_idx`. -/
  handshakeContact : Option ℕ
  /-- `s_42d_bitmap`. -/
  done42d : ℕ → Bool
  hasPeerSenderAuth : Bool
  peerSenderAuthKey : List UInt8
  app : KeyPhase
  netQueue : List QueuedCmd
  executing : Option KeyCmd
  /-- `NOTIFY_KEY_DONE` is pending for the App Task. -/
  keyDone : Bool
  /-- The contact in each slot. -/
  occupant : ℕ → ℕ
  contacts : ℕ
  /-- The key in the last confirmation of each contact. -/
  ownKey : ℕ → Option (List UInt8)
  handshakes : ℕ
  answered : List ℕ
  keysSent : List SentKey
  waitsEnded : List EndedWait

namespace KeyTasks

/-- The tasks after a start-up with these contacts: their handshakes count as done. -/
def boot (contactActive : ℕ → Bool) : KeyTasks where
  handshakeContact := none
  done42d := contactActive
  hasPeerSenderAuth := false
  peerSenderAuthKey := List.replicate 44 0
  app := .idle
  netQueue := []
  executing := none
  keyDone := false
  occupant := id
  contacts := maxContacts
  ownKey := fun _ => none
  handshakes := 0
  answered := []
  keysSent := []
  waitsEnded := []

/-- `is_42d_done`: an index out of range counts as done. -/
def is42dDone (s : KeyTasks) (idx : ℕ) : Bool := decide (maxContacts ≤ idx) || s.done42d idx

/-- What `smp_agent_process_message` does to the two globals with a message of a contact. -/
def processMessage (s : KeyTasks) (sender : ℕ) (plain : Option Plaintext) : KeyTasks :=
  match plain.bind senderAuthKey with
  | none => s
  | some key =>
    { s with
      hasPeerSenderAuth := true
      peerSenderAuthKey := key
      ownKey := Function.update s.ownKey sender (some key) }

/-- The post-confirmation block, up to the wait; `room` says whether the ring buffer takes the
command. -/
def postConfirmation (s : KeyTasks) (idx : ℕ) (rqSlot : Option ℕ) (room : Bool) : KeyTasks :=
  if s.hasPeerSenderAuth && !s.is42dDone idx then
    let marked := { s with done42d := Function.update s.done42d idx true }
    if room then
      { marked with
        netQueue := s.netQueue ++ [.sendKey ⟨rqSlot, s.peerSenderAuthKey, s.handshakes,
          s.occupant idx, s.ownKey (s.occupant idx)⟩]
        app := .queued s.handshakes
        handshakes := s.handshakes + 1 }
    else marked
  else s

/-- `app_handle_reply_queue_msg` for the contact in a slot; `plain` is none when the decryption
fails. -/
def handleReplyQueueMsg (s : KeyTasks) (idx : ℕ) (rqSlot : Option ℕ) (sender : ℕ)
    (plain : Option Plaintext) (room : Bool) : KeyTasks :=
  if s.app = .idle then (s.processMessage sender plain).postConfirmation idx rqSlot room else s

/-- The full pipeline of `app_handle_contact_queue_msg`, which is for contacts whose handshake
is done. -/
def handleContactQueueMsg (s : KeyTasks) (idx : ℕ) (plain : Option Plaintext) : KeyTasks :=
  if s.app = .idle ∧ s.is42dDone idx = true then s.processMessage (s.occupant idx) plain else s

/-- The end of the wait, and the rest of the post-confirmation block. -/
def endWait (s : KeyTasks) (n : ℕ) (byNotification : Bool) : KeyTasks :=
  { s with
    app := .idle
    hasPeerSenderAuth := false
    keyDone := if byNotification then false else s.keyDone
    waitsEnded := s.waitsEnded ++ [⟨n, byNotification, decide (n ∈ s.answered)⟩] }

/-- `xTaskNotifyWait` returns if the bit is pending, whenever it was set. -/
def waitEnds (s : KeyTasks) : KeyTasks :=
  match s.app with
  | .waiting n => if s.keyDone then s.endWait n true else s
  | _ => s

/-- `xTaskNotifyWait` gives up after five seconds without the bit. -/
def waitTimesOut (s : KeyTasks) : KeyTasks :=
  match s.app with
  | .waiting n => if s.keyDone then s else s.endWait n false
  | _ => s

/-- The Network Task takes the next command. -/
def netTake (s : KeyTasks) : KeyTasks :=
  match s.executing, s.netQueue with
  | none, .sendKey cmd :: queue => { s with netQueue := queue, executing := some cmd }
  | none, .addContact (some slot) :: queue =>
    { s with
      netQueue := queue
      handshakeContact := some slot
      occupant := Function.update s.occupant slot s.contacts
      contacts := s.contacts + 1 }
  | none, _ :: queue => { s with netQueue := queue }
  | _, _ => s

end KeyTasks

/-- How `NET_CMD_SEND_KEY` goes on: the reply queue is not valid, the KEY cannot be written, or
it is written, and the one read after it gives a block or no block in time. Which KEY the block
answers is recorded with it: a `MSG`, a `PONG` or a `SUB`'s answer is the answer to none. -/
inductive KeyAnswer where
  | queueInvalid
  | writeFailed
  | block (answers : Option ℕ)
  | timeout
  deriving DecidableEq

/-- The App Task is notified after a block, whatever is in it, and after a timeout. -/
def KeyAnswer.notifies : KeyAnswer → Bool
  | .queueInvalid | .writeFailed => false
  | .block _ | .timeout => true

/-- The handshakes whose KEY has its response or its timeout with this. -/
def KeyAnswer.settles (cmd : KeyCmd) : KeyAnswer → List ℕ
  | .queueInvalid | .writeFailed => []
  | .block answers => answers.toList
  | .timeout => [cmd.handshake]

/-- The contact whose reply queue a command names when it is executed; the legacy queue is the
one of the contact it was queued for. -/
def KeyTasks.queueOf (s : KeyTasks) (cmd : KeyCmd) : ℕ := cmd.rqSlot.elim cmd.contact s.occupant

/-- The command that is executed comes to its end. -/
def KeyTasks.netAnswer (s : KeyTasks) (answer : KeyAnswer) : KeyTasks :=
  match s.executing with
  | none => s
  | some cmd =>
    if answer.notifies then
      { s with
        executing := none
        keyDone := true
        answered := s.answered ++ answer.settles cmd
        keysSent := s.keysSent ++ [⟨s.queueOf cmd, cmd⟩] }
    else { s with executing := none }

/-- What the two tasks and the UI do. -/
inductive KeyStep where
  /-- A message on the reply queue of the contact in a slot. -/
  | replyQueueMsg (idx : ℕ) (plain : Option Plaintext) (room : Bool)
  /-- A message of a contact on the legacy reply queue, which all contacts share. -/
  | legacyQueueMsg (sender : ℕ) (plain : Option Plaintext) (room : Bool)
  | contactQueueMsg (idx : ℕ) (plain : Option Plaintext)
  | startWait
  | waitEnds
  | waitTimesOut
  /-- `smp_clear_42d`, when a contact has been removed. -/
  | clear42d (idx : ℕ)
  | abortPendingContact
  | queueAddContact (slot : Option ℕ)
  | queueOther
  | netTake
  | netAnswer (answer : KeyAnswer)

/-- The tasks after a step. -/
def KeyTasks.step (s : KeyTasks) : KeyStep → KeyTasks
  | .replyQueueMsg idx plain room =>
    s.handleReplyQueueMsg idx (some idx) (s.occupant idx) plain room
  | .legacyQueueMsg sender plain room =>
    match s.handshakeContact with
    | none => s
    | some idx => s.handleReplyQueueMsg idx none sender plain room
  | .contactQueueMsg idx plain => s.handleContactQueueMsg idx plain
  | .startWait =>
    match s.app with
    | .queued n => { s with app := .waiting n }
    | _ => s
  | .waitEnds => s.waitEnds
  | .waitTimesOut => s.waitTimesOut
  | .clear42d idx => { s with done42d := Function.update s.done42d idx false }
  | .abortPendingContact => { s with handshakeContact := none }
  | .queueAddContact slot => { s with netQueue := s.netQueue ++ [.addContact slot] }
  | .queueOther => { s with netQueue := s.netQueue ++ [.other] }
  | .netTake => s.netTake
  | .netAnswer answer => s.netAnswer answer

/-- The plaintext of a confirmation whose key has the same byte everywhere. -/
def confirmationOf (keyByte : UInt8) : Plaintext where
  bytes := fun i => if i = 2 then 0x4B else if i = 3 then 44 else keyByte
  len := 15904

/-- A new contact in a slot. -/
def newContactIn (slot : ℕ) : List KeyStep := [.queueAddContact (some slot), .netTake]

/-- A handshake, with this number, whose KEY is answered in time. -/
def handshakeIn (slot : ℕ) (plain : Option Plaintext) (number : ℕ) : List KeyStep :=
  [.replyQueueMsg slot plain true, .startWait, .netTake, .netAnswer (.block (some number)), .waitEnds]

/-! ### What the parts leave alone -/

/-- A message changes the two globals and the record of own keys only. -/
theorem processMessage_frame (s : KeyTasks) (sender : ℕ) (plain : Option Plaintext) :
    (s.processMessage sender plain).netQueue = s.netQueue ∧
      (s.processMessage sender plain).executing = s.executing ∧
      (s.processMessage sender plain).occupant = s.occupant ∧
      (s.processMessage sender plain).keysSent = s.keysSent ∧
      (s.processMessage sender plain).app = s.app ∧
      (s.processMessage sender plain).done42d = s.done42d ∧
      (s.processMessage sender plain).keyDone = s.keyDone ∧
      (s.processMessage sender plain).answered = s.answered ∧
      (s.processMessage sender plain).waitsEnded = s.waitsEnded ∧
      (s.processMessage sender plain).handshakes = s.handshakes := by
  rw [KeyTasks.processMessage]
  cases plain.bind senderAuthKey with
  | none => exact ⟨rfl, rfl, rfl, rfl, rfl, rfl, rfl, rfl, rfl, rfl⟩
  | some key => exact ⟨rfl, rfl, rfl, rfl, rfl, rfl, rfl, rfl, rfl, rfl⟩

/-- A message queues a `SEND_KEY`: a sender key is there, from this message or from another
one, and the handshake is not done. -/
def KeyTasks.Completes (s : KeyTasks) (idx : ℕ) (plain : Option Plaintext) : Prop :=
  s.app = .idle ∧ s.is42dDone idx = false ∧
    (s.hasPeerSenderAuth = true ∨ (plain.bind senderAuthKey).isSome = true)

instance (s : KeyTasks) (idx : ℕ) (plain : Option Plaintext) : Decidable (s.Completes idx plain) :=
  inferInstanceAs (Decidable (_ ∧ _ ∧ _))

/-- The sender key that is there after a message. -/
theorem processMessage_hasPeerSenderAuth (s : KeyTasks) (sender : ℕ) (plain : Option Plaintext) :
    (s.processMessage sender plain).hasPeerSenderAuth =
      (s.hasPeerSenderAuth || (plain.bind senderAuthKey).isSome) := by
  rw [KeyTasks.processMessage]
  cases plain.bind senderAuthKey with
  | none => simp
  | some key => simp

/-- The command that a message makes the App Task queue. -/
def KeyTasks.keyCmd (s : KeyTasks) (idx : ℕ) (rqSlot : Option ℕ) (sender : ℕ)
    (plain : Option Plaintext) : KeyCmd :=
  let after := s.processMessage sender plain
  ⟨rqSlot, after.peerSenderAuthKey, s.handshakes, s.occupant idx, after.ownKey (s.occupant idx)⟩

/-- What a message on a reply queue does: the handshake is done and the `SEND_KEY` is queued, if
there is room, or the tasks stay as the message left them. -/
theorem handleReplyQueueMsg_cases (s : KeyTasks) (idx : ℕ) (rqSlot : Option ℕ) (sender : ℕ)
    (plain : Option Plaintext) (room : Bool) :
    (s.Completes idx plain ∧ s.handleReplyQueueMsg idx rqSlot sender plain room =
      { s.processMessage sender plain with
        done42d := Function.update s.done42d idx true
        netQueue := s.netQueue ++
          if room then [.sendKey (s.keyCmd idx rqSlot sender plain)] else []
        app := if room then .queued s.handshakes else s.app
        handshakes := if room then s.handshakes + 1 else s.handshakes }) ∨
    (¬ s.Completes idx plain ∧
      (s.handleReplyQueueMsg idx rqSlot sender plain room = s.processMessage sender plain ∨
        s.handleReplyQueueMsg idx rqSlot sender plain room = s)) := by
  obtain ⟨hqueue, -, hoccupant, -, happ, hdone, -, -, -, hnumber⟩ :=
    processMessage_frame s sender plain
  have hflag : ((s.processMessage sender plain).hasPeerSenderAuth &&
      !(s.processMessage sender plain).is42dDone idx) =
        ((s.hasPeerSenderAuth || (plain.bind senderAuthKey).isSome) && !s.is42dDone idx) := by
    rw [processMessage_hasPeerSenderAuth, KeyTasks.is42dDone, hdone, KeyTasks.is42dDone]
  rw [KeyTasks.handleReplyQueueMsg]
  by_cases hidle : s.app = .idle
  · rw [if_pos hidle, KeyTasks.postConfirmation]
    by_cases hcompletes : s.Completes idx plain
    · refine Or.inl ⟨hcompletes, ?_⟩
      obtain ⟨-, hopen, hkey⟩ := hcompletes
      rw [if_pos (by rw [hflag, hopen]; simpa using hkey)]
      cases room with
      | true => simp only [if_true, hqueue, hoccupant, hdone, hnumber, KeyTasks.keyCmd]
      | false => simp [hqueue, hdone, happ, hnumber]
    · refine Or.inr ⟨hcompletes, Or.inl ?_⟩
      rw [if_neg fun h => hcompletes ?_]
      rw [hflag] at h
      simp only [Bool.and_eq_true, Bool.or_eq_true, Bool.not_eq_true'] at h
      exact ⟨hidle, h.2, h.1⟩
  · rw [if_neg hidle]
    exact Or.inr ⟨fun h => hidle h.1, Or.inr rfl⟩

end SimpleGo
