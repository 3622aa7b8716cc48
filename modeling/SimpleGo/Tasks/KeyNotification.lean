import SimpleGo.Tasks.KeyCommands

/-!
# Which KEY a notification confirms

The App Task waits for the answer to a `SEND_KEY` on a bit that says neither which handshake it
is about nor when it was set, and the Network Task sets it after the next block of the
connection, whatever that block is. As long as this block is the answer to the command that is
waited for, and the bit is clear when a command is queued, a wait that ends by notification ends
after the answer to its own command.
-/

namespace SimpleGo

open Lib

/-- Every wait that ended by notification ended after its own `SEND_KEY` had been executed and
its response or timeout seen. -/
def KeyTasks.WaitsConfirmed (s : KeyTasks) : Prop :=
  ∀ w ∈ s.waitsEnded, w.byNotification = true → w.answered = true

/-- The bit is clear when a `SEND_KEY` is queued, and while the App Task is in a handshake the
Network Task notifies it only of the answer to that handshake's KEY, or of its timeout. -/
def KeyStep.InTime (s : KeyTasks) : KeyStep → Prop
  | .replyQueueMsg idx plain _ => s.Completes idx plain → s.keyDone = false
  | .legacyQueueMsg _ plain _ => ∀ idx ∈ s.handshakeContact,
    s.Completes idx plain → s.keyDone = false
  | .netAnswer answer => answer.notifies = true →
    ∀ cmd ∈ s.executing, ∀ n ∈ s.app.handshake, n ∈ answer.settles cmd
  | .contactQueueMsg _ _ | .startWait | .waitEnds | .waitTimesOut | .clear42d _
  | .abortPendingContact | .queueAddContact _ | .queueOther | .netTake => True

instance (s : KeyTasks) : (step : KeyStep) → Decidable (step.InTime s)
  | .replyQueueMsg _ _ _ => inferInstanceAs (Decidable (_ → _))
  | .legacyQueueMsg _ _ _ => inferInstanceAs (Decidable (∀ idx ∈ s.handshakeContact, _ → _))
  | .netAnswer _ => inferInstanceAs (Decidable (_ → ∀ cmd ∈ _, ∀ n ∈ _, _))
  | .contactQueueMsg _ _ | .startWait | .waitEnds | .waitTimesOut | .clear42d _
  | .abortPendingContact | .queueAddContact _ | .queueOther | .netTake => isTrue trivial

/-- What holds at every moment of a run in time: a pending bit is about the handshake that the
App Task is in. -/
structure NotifyInv (s : KeyTasks) : Prop where
  pending : s.keyDone = true → ∀ n ∈ s.app.handshake, n ∈ s.answered
  confirmed : s.WaitsConfirmed

/-- A state with the same handshake, bit and answers keeps the invariant. -/
theorem NotifyInv.of_frame {s s' : KeyTasks} (h : NotifyInv s) (hkey : s'.keyDone = s.keyDone)
    (happ : s'.app.handshake = s.app.handshake) (hanswered : s'.answered = s.answered)
    (hwaits : s'.waitsEnded = s.waitsEnded) : NotifyInv s' where
  pending := by
    rw [hkey, happ, hanswered]
    exact h.pending
  confirmed := by
    rw [KeyTasks.WaitsConfirmed, hwaits]
    exact h.confirmed

/-- A message on a reply queue starts a handshake with the bit clear. -/
theorem NotifyInv.handleReplyQueueMsg {s : KeyTasks} (h : NotifyInv s) {idx : ℕ}
    (rqSlot : Option ℕ) (sender : ℕ) {plain : Option Plaintext} (room : Bool)
    (hclear : s.Completes idx plain → s.keyDone = false) :
    NotifyInv (s.handleReplyQueueMsg idx rqSlot sender plain room) := by
  obtain ⟨-, -, -, -, happ, -, hkey, hanswered, hwaits, -⟩ := processMessage_frame s sender plain
  rcases handleReplyQueueMsg_cases s idx rqSlot sender plain room with
    ⟨hcompletes, heq⟩ | ⟨-, heq | heq⟩
  · rw [heq]
    refine ⟨fun hset => ?_, ?_⟩
    · simp only [hkey, hclear hcompletes] at hset
      exact absurd hset Bool.false_ne_true
    · rw [KeyTasks.WaitsConfirmed]
      simp only [hwaits]
      exact h.confirmed
  · rw [heq]
    exact h.of_frame hkey (congrArg KeyPhase.handshake happ) hanswered hwaits
  · rwa [heq]

/-- A wait ends: by notification only if its own command has been answered. -/
theorem NotifyInv.endWait {s : KeyTasks} (h : NotifyInv s) {n : ℕ} {byNotification : Bool}
    (hanswered : byNotification = true → n ∈ s.answered) :
    NotifyInv (s.endWait n byNotification) := by
  refine ⟨(fun _ _ hn => nomatch hn), fun w hw hby => ?_⟩
  rcases List.mem_append.1 hw with hw | hw
  · exact h.confirmed w hw hby
  · obtain rfl := List.mem_singleton.1 hw
    exact decide_eq_true (hanswered hby)

/-- The Network Task answers the handshake that the App Task is in, if it is in one. -/
theorem NotifyInv.netAnswer {s : KeyTasks} (h : NotifyInv s) {answer : KeyAnswer}
    (htime : KeyStep.InTime s (.netAnswer answer)) : NotifyInv (s.netAnswer answer) := by
  rw [KeyTasks.netAnswer]
  cases hexecuting : s.executing with
  | none => exact h
  | some cmd =>
    dsimp only
    split
    · rename_i hnotifies
      refine ⟨fun _ n hn => ?_, h.confirmed⟩
      exact List.mem_append_right _ (htime hnotifies cmd hexecuting n hn)
    · exact h.of_frame rfl rfl rfl rfl

/-- A step in time keeps the invariant. -/
theorem NotifyInv.step {s : KeyTasks} (h : NotifyInv s) {step : KeyStep}
    (htime : step.InTime s) : NotifyInv (s.step step) := by
  cases step with
  | replyQueueMsg idx plain room => exact h.handleReplyQueueMsg _ _ room htime
  | legacyQueueMsg sender plain room =>
    simp only [KeyTasks.step]
    cases hcontact : s.handshakeContact with
    | none => exact h
    | some idx => exact h.handleReplyQueueMsg none sender room (htime idx hcontact)
  | contactQueueMsg idx plain =>
    obtain ⟨-, -, -, -, happ, -, hkey, hanswered, hwaits, -⟩ :=
      processMessage_frame s (s.occupant idx) plain
    simp only [KeyTasks.step, KeyTasks.handleContactQueueMsg]
    split
    · exact h.of_frame hkey (congrArg KeyPhase.handshake happ) hanswered hwaits
    · exact h
  | startWait =>
    simp only [KeyTasks.step]
    split
    · rename_i n happ
      exact h.of_frame rfl (by rw [happ]; rfl) rfl rfl
    · exact h
  | waitEnds =>
    simp only [KeyTasks.step, KeyTasks.waitEnds]
    split
    · rename_i n happ
      split
      · rename_i hset
        exact h.endWait fun _ => h.pending hset n (by rw [happ]; rfl)
      · exact h
    · exact h
  | waitTimesOut =>
    simp only [KeyTasks.step, KeyTasks.waitTimesOut]
    split
    · split
      · exact h
      · exact h.endWait fun hby => absurd hby Bool.false_ne_true
    · exact h
  | netTake =>
    simp only [KeyTasks.step, KeyTasks.netTake]
    split
    · exact h.of_frame rfl rfl rfl rfl
    · exact h.of_frame rfl rfl rfl rfl
    · exact h.of_frame rfl rfl rfl rfl
    · exact h
  | clear42d idx => exact h.of_frame rfl rfl rfl rfl
  | abortPendingContact => exact h.of_frame rfl rfl rfl rfl
  | queueAddContact slot => exact h.of_frame rfl rfl rfl rfl
  | queueOther => exact h.of_frame rfl rfl rfl rfl
  | netAnswer answer => exact h.netAnswer htime

/-- While no answer comes late, a wait that ends by notification ends after the answer to its
own `SEND_KEY`. -/
theorem key_waits_confirmed (contactActive : ℕ → Bool) {steps : List KeyStep}
    (htime : StepsMeet KeyTasks.step (fun s step => step.InTime s)
      (KeyTasks.boot contactActive) steps) :
    (runFrom KeyTasks.step (KeyTasks.boot contactActive) steps).WaitsConfirmed := by
  have hboot : NotifyInv (KeyTasks.boot contactActive) :=
    ⟨fun hset => absurd hset Bool.false_ne_true, fun _ hw => absurd hw List.not_mem_nil⟩
  exact (htime.invariant (fun _ _ h hstep => h.step hstep) hboot).confirmed

/-- The handshakes of two contacts, one answered in time and one not answered. -/
theorem key_waits_confirmed_two_handshakes :
    (runFrom KeyTasks.step (KeyTasks.boot fun _ => false)
      (newContactIn 1 ++ newContactIn 2 ++ handshakeIn 1 (some (confirmationOf 7)) 0 ++
        [.replyQueueMsg 2 (some (confirmationOf 9)) true, .queueOther, .startWait, .netTake,
          .waitTimesOut])).WaitsConfirmed :=
  key_waits_confirmed (fun _ => false) (by decide)

/-- The answer to the KEY of contact 1 comes after its wait has ended; the wait for the KEY of
contact 2 then ends at once, with its command still in the queue. A `MSG` that comes before the
answer to the KEY of contact 1 ends the wait for it as well. -/
theorem late_answer_confirms_another_key :
    ¬ (runFrom KeyTasks.step (KeyTasks.boot fun _ => false)
      (newContactIn 1 ++ newContactIn 2 ++
        [.replyQueueMsg 1 (some (confirmationOf 7)) true, .startWait, .waitTimesOut, .netTake,
          .netAnswer (.block (some 0)), .replyQueueMsg 2 (some (confirmationOf 9)) true, .startWait,
          .waitEnds])).WaitsConfirmed ∧
    ¬ (runFrom KeyTasks.step (KeyTasks.boot fun _ => false)
      (newContactIn 1 ++ [.replyQueueMsg 1 (some (confirmationOf 7)) true, .startWait, .netTake,
        .netAnswer (.block none), .waitEnds])).WaitsConfirmed := by
  refine ⟨fun h => ?_, fun h => ?_⟩
  · exact absurd (h ⟨1, true, false⟩ (by decide) rfl) Bool.false_ne_true
  · exact absurd (h ⟨0, true, false⟩ (by decide) rfl) Bool.false_ne_true

end SimpleGo
