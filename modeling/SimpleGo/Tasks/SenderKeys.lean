import SimpleGo.Tasks.KeyCommands

/-!
# Which key a KEY command carries

A `SEND_KEY` takes the sender authentication key from the global, which any confirmation sets
and only the end of a handshake resets. As long as the message that makes the App Task queue
the command is itself the confirmation, every KEY carries the key of its own contact.
-/

namespace SimpleGo

open Lib

/-- Every KEY command written names the reply queue of the contact it was queued for, and
carries the key of the last confirmation that this contact had sent. -/
def KeyTasks.KeysBind (s : KeyTasks) : Prop :=
  ∀ k ∈ s.keysSent, k.queueOf = k.cmd.contact ∧ k.cmd.ownKey = some k.cmd.peerAuthKey

/-- The slot in which a command makes a contact. -/
def QueuedCmd.newSlot : QueuedCmd → Option ℕ
  | .addContact slot => slot
  | .sendKey _ | .other => none

/-- The slot whose reply queue a command names. -/
def QueuedCmd.keySlot : QueuedCmd → Option ℕ
  | .sendKey cmd => cmd.rqSlot
  | .addContact _ | .other => none

/-- The message that makes the App Task queue a `SEND_KEY` is itself a confirmation with a key
of 44 bytes, on the legacy queue of the contact whose handshake is under way; and no contact
is made in a slot for which a `SEND_KEY` is still queued. -/
def KeyStep.FromOwnConfirmation (s : KeyTasks) : KeyStep → Prop
  | .replyQueueMsg idx plain _ =>
    s.Completes idx plain → (plain.bind senderAuthKey).isSome = true
  | .legacyQueueMsg sender plain _ => ∀ idx ∈ s.handshakeContact, s.Completes idx plain →
    (plain.bind senderAuthKey).isSome = true ∧ sender = s.occupant idx
  | .netTake => ∀ slot ∈ s.netQueue.head?.bind QueuedCmd.newSlot,
    ∀ c ∈ s.netQueue, c.keySlot ≠ some slot
  | .contactQueueMsg _ _ | .startWait | .waitEnds | .waitTimesOut | .clear42d _
  | .abortPendingContact | .queueAddContact _ | .queueOther | .netAnswer _ => True

instance (s : KeyTasks) : (step : KeyStep) → Decidable (step.FromOwnConfirmation s)
  | .replyQueueMsg _ _ _ => inferInstanceAs (Decidable (_ → _))
  | .legacyQueueMsg _ _ _ => inferInstanceAs (Decidable (∀ idx ∈ s.handshakeContact, _ → _ ∧ _))
  | .netTake => inferInstanceAs (Decidable (∀ slot ∈ _, ∀ c ∈ _, _))
  | .contactQueueMsg _ _ | .startWait | .waitEnds | .waitTimesOut | .clear42d _
  | .abortPendingContact | .queueAddContact _ | .queueOther | .netAnswer _ => isTrue trivial

/-- The command carries its contact's own key, and its slot is still that contact's. -/
def KeyCmd.Own (s : KeyTasks) (cmd : KeyCmd) : Prop :=
  cmd.ownKey = some cmd.peerAuthKey ∧ s.queueOf cmd = cmd.contact

/-- What holds at every moment of a run in which the keys are taken from own confirmations. -/
structure KeyInv (s : KeyTasks) : Prop where
  queued : ∀ cmd, .sendKey cmd ∈ s.netQueue → cmd.Own s
  executing : ∀ cmd ∈ s.executing, cmd.Own s
  sent : s.KeysBind

/-- A state with the same contacts in the slots, no new command and no new KEY keeps the
invariant. -/
theorem KeyInv.of_frame {s s' : KeyTasks} (h : KeyInv s)
    (hqueue : ∀ cmd, .sendKey cmd ∈ s'.netQueue → .sendKey cmd ∈ s.netQueue)
    (hexecuting : s'.executing = s.executing) (hoccupant : s'.occupant = s.occupant)
    (hsent : s'.keysSent = s.keysSent) : KeyInv s' where
  queued := by
    intro cmd hcmd
    rw [KeyCmd.Own, KeyTasks.queueOf, hoccupant]
    exact h.queued cmd (hqueue cmd hcmd)
  executing := by
    intro cmd hcmd
    rw [hexecuting] at hcmd
    rw [KeyCmd.Own, KeyTasks.queueOf, hoccupant]
    exact h.executing cmd hcmd
  sent := by
    rw [KeyTasks.KeysBind, hsent]
    exact h.sent

/-- A message puts nothing into the queue. -/
theorem KeyInv.processMessage {s : KeyTasks} (h : KeyInv s) (sender : ℕ)
    (plain : Option Plaintext) : KeyInv (s.processMessage sender plain) := by
  obtain ⟨hqueue, hexecuting, hoccupant, hsent, -⟩ := processMessage_frame s sender plain
  exact h.of_frame (fun cmd hcmd => by rwa [hqueue] at hcmd) hexecuting hoccupant hsent

/-- After a confirmation of the contact the command that is queued carries its key. -/
theorem keyCmd_own (s : KeyTasks) {idx : ℕ} {plain : Option Plaintext} {rqSlot : Option ℕ}
    (hslot : ∀ slot ∈ rqSlot, slot = idx) (hkey : (plain.bind senderAuthKey).isSome = true) :
    (s.keyCmd idx rqSlot (s.occupant idx) plain).Own s := by
  obtain ⟨key, hkey⟩ := Option.isSome_iff_exists.1 hkey
  refine ⟨?_, ?_⟩
  · simp only [KeyTasks.keyCmd, KeyTasks.processMessage, hkey, Function.update_self]
  · cases rqSlot with
    | none => rfl
    | some slot => exact congrArg s.occupant (hslot slot rfl)

/-- A message on a reply queue keeps the invariant, if it is a confirmation of the contact
whenever it completes a handshake. -/
theorem KeyInv.handleReplyQueueMsg {s : KeyTasks} (h : KeyInv s) {idx : ℕ} {rqSlot : Option ℕ}
    {sender : ℕ} {plain : Option Plaintext} (room : Bool) (hslot : ∀ slot ∈ rqSlot, slot = idx)
    (hown : s.Completes idx plain →
      (plain.bind senderAuthKey).isSome = true ∧ sender = s.occupant idx) :
    KeyInv (s.handleReplyQueueMsg idx rqSlot sender plain room) := by
  obtain ⟨-, hexecuting, hoccupant, hsent, -⟩ := processMessage_frame s sender plain
  rcases handleReplyQueueMsg_cases s idx rqSlot sender plain room with
    ⟨hcompletes, heq⟩ | ⟨-, heq | heq⟩
  · obtain ⟨hkey, rfl⟩ := hown hcompletes
    have hcmd := keyCmd_own s hslot hkey
    rw [heq]
    refine ⟨fun cmd hmem => ?_, fun cmd hmem => ?_, ?_⟩
    · rw [KeyCmd.Own, KeyTasks.queueOf]
      simp only [hoccupant]
      rcases List.mem_append.1 hmem with hmem | hmem
      · exact h.queued cmd hmem
      · cases room with
        | true =>
          obtain rfl := QueuedCmd.sendKey.inj (List.mem_singleton.1 hmem)
          exact hcmd
        | false => exact absurd hmem List.not_mem_nil
    · rw [KeyCmd.Own, KeyTasks.queueOf]
      simp only [hoccupant]
      simp only [hexecuting] at hmem
      exact h.executing cmd hmem
    · rw [KeyTasks.KeysBind]
      simp only [hsent]
      exact h.sent
  · rw [heq]
    exact h.processMessage sender plain
  · rwa [heq]

/-- The Network Task takes a command, and makes no contact in the slot of a queued one. -/
theorem KeyInv.netTake {s : KeyTasks} (h : KeyInv s)
    (hfree : KeyStep.FromOwnConfirmation s .netTake) : KeyInv s.netTake := by
  have htail : ∀ {first : QueuedCmd} {queue : List QueuedCmd}, s.netQueue = first :: queue →
      ∀ cmd, .sendKey cmd ∈ queue → .sendKey cmd ∈ s.netQueue := by
    intro first queue hqueue cmd hcmd
    rw [hqueue]
    exact List.mem_cons_of_mem first hcmd
  rw [KeyTasks.netTake]
  split
  · rename_i cmd queue hexecuting hqueue
    refine ⟨fun cmd' hcmd => h.queued cmd' (htail hqueue cmd' hcmd), ?_, h.sent⟩
    rintro cmd' ⟨⟩
    refine h.queued cmd ?_
    rw [hqueue]
    exact List.mem_cons_self
  · rename_i slot queue hexecuting hqueue
    have hnot := hfree slot (by rw [hqueue]; rfl)
    refine ⟨fun cmd hcmd => ?_, fun cmd hcmd => ?_, h.sent⟩
    · have hmem := htail hqueue cmd hcmd
      obtain ⟨hkey, hqueueOf⟩ := h.queued cmd hmem
      refine ⟨hkey, ?_⟩
      rw [← hqueueOf, KeyTasks.queueOf, KeyTasks.queueOf]
      cases hslot : cmd.rqSlot with
      | none => rfl
      | some other =>
        have hne : other ≠ slot := fun heq =>
          hnot (.sendKey cmd) hmem (by rw [QueuedCmd.keySlot, hslot, heq])
        exact Function.update_of_ne hne ..
    · change cmd ∈ s.executing at hcmd
      rw [hexecuting] at hcmd
      cases hcmd
  · rename_i first queue hexecuting hqueue
    exact h.of_frame (htail hqueue) rfl rfl rfl
  · exact h

/-- A KEY is written. -/
theorem KeyInv.netAnswer {s : KeyTasks} (h : KeyInv s) (answer : KeyAnswer) :
    KeyInv (s.netAnswer answer) := by
  rw [KeyTasks.netAnswer]
  cases hexecuting : s.executing with
  | none => exact h
  | some cmd =>
    dsimp only
    split
    · refine ⟨h.queued, (fun _ hcmd => nomatch hcmd), fun k hk => ?_⟩
      rcases List.mem_append.1 hk with hk | hk
      · exact h.sent k hk
      · obtain rfl := List.mem_singleton.1 hk
        obtain ⟨hkey, hqueueOf⟩ := h.executing cmd hexecuting
        exact ⟨hqueueOf, hkey⟩
    · exact ⟨h.queued, (fun _ hcmd => nomatch hcmd), h.sent⟩

/-- A step in which the key is taken from the own confirmation keeps the invariant. -/
theorem KeyInv.step {s : KeyTasks} (h : KeyInv s) {step : KeyStep}
    (hown : step.FromOwnConfirmation s) : KeyInv (s.step step) := by
  cases step with
  | replyQueueMsg idx plain room =>
    refine h.handleReplyQueueMsg room ?_ fun hcompletes => ⟨hown hcompletes, rfl⟩
    rintro slot ⟨⟩
    rfl
  | legacyQueueMsg sender plain room =>
    simp only [KeyTasks.step]
    cases hcontact : s.handshakeContact with
    | none => exact h
    | some idx => exact h.handleReplyQueueMsg room (fun _ hslot => nomatch hslot) (hown idx hcontact)
  | contactQueueMsg idx plain =>
    simp only [KeyTasks.step, KeyTasks.handleContactQueueMsg]
    split
    · exact h.processMessage _ plain
    · exact h
  | startWait =>
    simp only [KeyTasks.step]
    split
    · exact h.of_frame (fun _ hcmd => hcmd) rfl rfl rfl
    · exact h
  | waitEnds =>
    simp only [KeyTasks.step, KeyTasks.waitEnds]
    split
    · split
      · exact h.of_frame (fun _ hcmd => hcmd) rfl rfl rfl
      · exact h
    · exact h
  | waitTimesOut =>
    simp only [KeyTasks.step, KeyTasks.waitTimesOut]
    split
    · split
      · exact h
      · exact h.of_frame (fun _ hcmd => hcmd) rfl rfl rfl
    · exact h
  | clear42d idx => exact h.of_frame (fun _ hcmd => hcmd) rfl rfl rfl
  | abortPendingContact => exact h.of_frame (fun _ hcmd => hcmd) rfl rfl rfl
  | queueAddContact slot =>
    refine h.of_frame (fun cmd hcmd => ?_) rfl rfl rfl
    exact (List.mem_append.1 hcmd).resolve_right fun hlast => by simp at hlast
  | queueOther =>
    refine h.of_frame (fun cmd hcmd => ?_) rfl rfl rfl
    exact (List.mem_append.1 hcmd).resolve_right fun hlast => by simp at hlast
  | netTake => exact h.netTake hown
  | netAnswer answer => exact h.netAnswer answer

/-- While every `SEND_KEY` is queued by a confirmation of its own contact, every KEY command
carries the key of that contact's own last confirmation. -/
theorem keys_bind_own_contact (contactActive : ℕ → Bool) {steps : List KeyStep}
    (hown : StepsMeet KeyTasks.step (fun s step => step.FromOwnConfirmation s)
      (KeyTasks.boot contactActive) steps) :
    (runFrom KeyTasks.step (KeyTasks.boot contactActive) steps).KeysBind := by
  have hboot : KeyInv (KeyTasks.boot contactActive) :=
    ⟨fun _ hcmd => absurd hcmd List.not_mem_nil, (fun _ hcmd => nomatch hcmd),
      fun _ hk => absurd hk List.not_mem_nil⟩
  exact (hown.invariant (fun _ _ h hstep => h.step hstep) hboot).sent

/-- The handshakes of two contacts, one after the other. -/
theorem keys_bind_own_contact_two_handshakes :
    (runFrom KeyTasks.step (KeyTasks.boot fun _ => false)
      (newContactIn 1 ++ newContactIn 2 ++ handshakeIn 1 (some (confirmationOf 7)) 0 ++
        handshakeIn 2 (some (confirmationOf 9)) 1)).KeysBind :=
  keys_bind_own_contact (fun _ => false) (by decide)

/-- Contact 1 sends its confirmation twice; then a message on the reply queue of contact 2
cannot be decrypted, and the KEY for contact 2 carries the key of contact 1. -/
theorem key_of_another_contact_sent :
    ¬ (runFrom KeyTasks.step (KeyTasks.boot fun _ => false)
      (newContactIn 1 ++ newContactIn 2 ++ handshakeIn 1 (some (confirmationOf 7)) 0 ++
        [.replyQueueMsg 1 (some (confirmationOf 7)) true] ++ handshakeIn 2 none 2)).KeysBind := by
  intro h
  have hsecond := (h ⟨129, ⟨some 2, List.replicate 44 7, 1, 129, none⟩⟩ (by decide)).2
  cases hsecond

end SimpleGo
