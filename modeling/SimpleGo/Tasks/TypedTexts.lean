import SimpleGo.Contacts.Device
import SimpleGo.Lib.Runs

/-!
# Typed texts

The UI puts a typed text into a queue of four; the App Task takes it out, reads from globals
which contact is the active one and which sequence number was given out last, sends the text
and appends it to the history. The UI thread opens chats, the App Task finishes handshakes,
and both set the active contact. The typed texts are recorded with the chat that was shown.

The numbers of the bubbles start again with each chat screen, so a text keeps its screen too: the
number of a text that is still being sent must not be that of a bubble on a later screen.
-/

namespace SimpleGo

open Lib

/-- A text the user sent: the contact whose chat was shown, the screen its bubble is on, and the
number of the bubble. -/
structure TypedText where
  contact : ℕ
  screen : ℕ
  seq : UInt32
  text : List UInt8
  deriving DecidableEq

/-- What became of a text taken from the queue: the contact it was encrypted for, the number and
the success that were reported to the UI, and the history it was appended to. -/
structure SentText where
  text : List UInt8
  encryptedFor : Option ℕ
  reported : UInt32
  success : Bool
  storedFor : Option ℕ
  deriving DecidableEq

/-- A text between `peer_send_chat_message` and `smp_history_append`, and the screen whose number
was read. -/
structure TextInFlight where
  contact : ℕ
  screen : ℕ
  seq : UInt32
  text : List UInt8
  deriving DecidableEq

/-- The UI, the queue of typed texts and the part of the App Task that sends them. -/
structure ChatTasks where
  /-- `contacts_db.contacts[i].active`. -/
  contactActive : ℕ → Bool
  /-- `s_active_contact_idx`. -/
  activeContact : ℕ
  /-- The chat screen exists. -/
  chatOpen : Bool
  /-- `s_chat_active_contact`. -/
  chatContact : ℕ
  /-- How many chat screens have been destroyed. -/
  screen : ℕ
  /-- `msg_seq_counter`. -/
  msgSeq : UInt32
  /-- The `UI_EVT_SWITCH_CONTACT` events on their way to the UI. -/
  switchEvents : List ℕ
  /-- `kbd_msg_queue`. -/
  kbdQueue : List (List UInt8)
  inFlight : Option TextInFlight
  typed : List TypedText
  sent : List SentText

namespace ChatTasks

/-- A device with these contacts and no chat open. -/
def boot (contactActive : ℕ → Bool) : ChatTasks where
  contactActive := contactActive
  activeContact := 0
  chatOpen := false
  chatContact := 0
  screen := 0
  msgSeq := 0
  switchEvents := []
  kbdQueue := []
  inFlight := none
  typed := []
  sent := []

/-- `smp_set_active_contact`; `room` says whether the UI's event queue takes the event. -/
def smpSetActiveContact (s : ChatTasks) (idx : ℕ) (room : Bool) : ChatTasks :=
  if idx < maxContacts ∧ s.contactActive idx = true then
    { s with
      activeContact := idx
      switchEvents := if room then s.switchEvents ++ [idx] else s.switchEvents }
  else s

/-- A click on a contact, or the unlocked screen: the chat screen is shown. -/
def openChat (s : ChatTasks) (idx : ℕ) (room : Bool) : ChatTasks :=
  if idx < maxContacts ∧ s.contactActive idx = true then
    { s.smpSetActiveContact idx room with chatOpen := true }
  else s

/-- The chat screen is destroyed: `ui_chat_cleanup` with `chat_bubble_cleanup`. -/
def closeChat (s : ChatTasks) : ChatTasks :=
  { s with chatOpen := false, screen := s.screen + 1, msgSeq := 0 }

/-- `ui_poll_timer_cb` takes a switch event: `ui_chat_switch_contact`. -/
def uiEvent (s : ChatTasks) : ChatTasks :=
  match s.switchEvents with
  | [] => s
  | idx :: events => { s with chatContact := idx, switchEvents := events }

/-- `chat_send_cb`: the queue has four entries of 255 characters. -/
def chatSendCb (s : ChatTasks) (text : List UInt8) : ChatTasks :=
  if s.kbdQueue.length < 4 then { s with kbdQueue := s.kbdQueue ++ [text.take 255] } else s

/-- `do_send_message`; `migrating` says that the shown contact is being moved by a rotation. -/
def doSendMessage (s : ChatTasks) (text : List UInt8) (migrating : Bool) : ChatTasks :=
  if s.chatOpen = false ∨ text = [] ∨ migrating = true then s
  else
    let seq := s.msgSeq + 1
    chatSendCb { s with msgSeq := seq, typed := s.typed ++ [⟨s.chatContact, s.screen, seq, text⟩] }
      text

/-- `app_process_keyboard_queue` takes a text: a contact that is not active is reported. -/
def takeText (s : ChatTasks) : ChatTasks :=
  match s.inFlight, s.kbdQueue with
  | none, text :: queue =>
    if s.contactActive s.activeContact then
      { s with kbdQueue := queue, inFlight := some ⟨s.activeContact, s.screen, s.msgSeq, text⟩ }
    else { s with kbdQueue := queue, sent := s.sent ++ [⟨text, none, s.msgSeq, false, none⟩] }
  | _, _ => s

/-- `peer_send_chat_message` has returned: the status is reported, and the text is appended with
it to the history of the contact that is active now. -/
def finishText (s : ChatTasks) (success : Bool) : ChatTasks :=
  match s.inFlight with
  | none => s
  | some f =>
    { s with
      inFlight := none
      sent := s.sent ++ [⟨f.text, some f.contact, f.seq, success, some s.activeContact⟩] }

/-- The end of a handshake in `app_handle_reply_queue_msg`; the App Task is not sending. -/
def handshakeDone (s : ChatTasks) (hsContact : ℕ) : ChatTasks :=
  if s.inFlight.isNone then { s with activeContact := hsContact } else s

/-- A contact is added or removed. -/
def setContact (s : ChatTasks) (idx : ℕ) (active : Bool) : ChatTasks :=
  { s with contactActive := Function.update s.contactActive idx active }

end ChatTasks

/-- What the UI, the App Task and the Network Task do. -/
inductive ChatStep where
  | openChat (idx : ℕ) (room : Bool)
  | closeChat
  | uiEvent
  | sendText (text : List UInt8) (migrating : Bool)
  | takeText
  | finishText (success : Bool)
  | handshakeDone (hsContact : ℕ)
  | setContact (idx : ℕ) (active : Bool)
  deriving DecidableEq

/-- The tasks after a step. -/
def ChatTasks.step (s : ChatTasks) : ChatStep → ChatTasks
  | .openChat idx room => s.openChat idx room
  | .closeChat => s.closeChat
  | .uiEvent => s.uiEvent
  | .sendText text migrating => s.doSendMessage text migrating
  | .takeText => s.takeText
  | .finishText success => s.finishText success
  | .handshakeDone hsContact => s.handshakeDone hsContact
  | .setContact idx active => s.setContact idx active

/-- What should become of a text, whether or not sending it succeeds. -/
def TypedText.arrived (t : TypedText) (success : Bool) : SentText :=
  ⟨t.text, some t.contact, t.seq, success, some t.contact⟩

/-- The typed text that is being sent. -/
def TextInFlight.typed (f : TextInFlight) : TypedText := ⟨f.contact, f.screen, f.seq, f.text⟩

/-- The texts taken so far went, in their order, to the contacts they were typed for, and
the others are still on their way; and the number that will be reported is that of no other bubble
on the screen. -/
def ChatTasks.TextsReach (s : ChatTasks) : Prop :=
  (∃ (done : List (TypedText × Bool)) (waiting : List TypedText),
    s.typed = done.map Prod.fst ++ waiting ∧ s.sent = done.map (fun d => d.1.arrived d.2) ∧
      s.inFlight.toList.map TextInFlight.text ++ s.kbdQueue = waiting.map TypedText.text) ∧
    ∀ f ∈ s.inFlight, ∀ t ∈ s.typed, t.screen = s.screen → t.seq = f.seq → t = f.typed

/-- The next number is no bubble's: the counter does not wrap, and a text that is still being sent
from an earlier screen has another one. -/
def ChatTasks.NumberFree (s : ChatTasks) : Prop :=
  s.msgSeq < 4294967295 ∧ ∀ f ∈ s.inFlight, f.screen = s.screen ∨ f.seq ≠ s.msgSeq + 1

instance (s : ChatTasks) : Decidable s.NumberFree :=
  inferInstanceAs (Decidable (_ ∧ ∀ f ∈ s.inFlight, _))

/-- The globals still belong to the text: a text is sent while its chat's contact is the
active one, no text waits and its number is free, and while one waits the active contact stays, is
not removed, and the chat screen is not destroyed. -/
def ChatStep.Settled (s : ChatTasks) : ChatStep → Prop
  | .openChat idx _ =>
    (s.kbdQueue = [] ∧ s.inFlight = none) ∨ idx = s.activeContact ∨
      ¬ (idx < maxContacts ∧ s.contactActive idx = true)
  | .closeChat => s.kbdQueue = []
  | .sendText text migrating =>
    (s.chatOpen = false ∨ text = [] ∨ migrating = true) ∨
      (s.chatContact = s.activeContact ∧ s.contactActive s.activeContact = true ∧
        s.kbdQueue = [] ∧ text.length ≤ 255 ∧ s.NumberFree)
  | .handshakeDone hsContact => s.kbdQueue = [] ∨ hsContact = s.activeContact
  | .setContact idx active => s.kbdQueue = [] ∨ idx ≠ s.activeContact ∨ active = true
  | .uiEvent | .takeText | .finishText _ => True

instance (s : ChatTasks) : (step : ChatStep) → Decidable (step.Settled s)
  | .openChat _ _ => inferInstanceAs (Decidable (_ ∨ _))
  | .closeChat => inferInstanceAs (Decidable (_ = _))
  | .sendText _ _ => inferInstanceAs (Decidable (_ ∨ _))
  | .handshakeDone _ => inferInstanceAs (Decidable (_ ∨ _))
  | .setContact _ _ => inferInstanceAs (Decidable (_ ∨ _))
  | .uiEvent | .takeText | .finishText _ => isTrue trivial

/-- The text in the queue is the last one typed, for the active contact. -/
def TypedText.Current (s : ChatTasks) (t : TypedText) : Prop :=
  t.contact = s.activeContact ∧ t.screen = s.screen ∧ t.seq = s.msgSeq ∧
    s.contactActive s.activeContact = true

/-- The bubbles of a screen have different numbers, up to the last one given out, and so has a
text that is still being sent from an earlier screen. -/
structure BubblesNumbered (s : ChatTasks) : Prop where
  screen : ∀ t ∈ s.typed, t.screen ≤ s.screen
  number : ∀ t ∈ s.typed, t.screen = s.screen → t.seq ≤ s.msgSeq
  distinct : ∀ t ∈ s.typed, ∀ u ∈ s.typed, t.screen = u.screen → t.seq = u.seq → t = u
  earlier : ∀ f ∈ s.inFlight, f.screen ≠ s.screen → ∀ t ∈ s.typed, t.screen = s.screen →
    t.seq ≠ f.seq

/-- What holds at every moment of a settled run. -/
structure ChatInv (s : ChatTasks) (done : List (TypedText × Bool)) (queued : List TypedText) :
    Prop where
  typed : s.typed = done.map Prod.fst ++ (s.inFlight.toList.map TextInFlight.typed ++ queued)
  sent : s.sent = done.map fun d => d.1.arrived d.2
  flight : ∀ f ∈ s.inFlight, f.contact = s.activeContact
  queue : s.kbdQueue = queued.map TypedText.text
  last : queued.length ≤ 1
  current : ∀ t ∈ queued, t.Current s
  numbered : BubblesNumbered s

/-- The invariant gives the property. -/
theorem ChatInv.textsReach {s : ChatTasks} {done : List (TypedText × Bool)}
    {queued : List TypedText} (h : ChatInv s done queued) : s.TextsReach := by
  refine ⟨⟨done, _, h.typed, h.sent, ?_⟩, fun f hf t ht hscreen hseq => ?_⟩
  · rw [h.queue, List.map_append, List.map_map]
    rfl
  · by_cases hsame : f.screen = s.screen
    · have hmem : f.typed ∈ s.typed := by
        rw [h.typed, Option.mem_def.1 hf]
        simp
      exact h.numbered.distinct t ht f.typed hmem (hscreen.trans hsame.symm) hseq
    · exact absurd hseq (h.numbered.earlier f hf hsame t ht hscreen)

/-- A state that differs in nothing the invariant is about keeps it. -/
theorem ChatInv.congr {s s' : ChatTasks} {done : List (TypedText × Bool)} {queued : List TypedText}
    (h : ChatInv s done queued) (htyped : s'.typed = s.typed) (hsent : s'.sent = s.sent)
    (hflight : s'.inFlight = s.inFlight) (hqueue : s'.kbdQueue = s.kbdQueue)
    (hscreen : s'.screen = s.screen) (hseq : s'.msgSeq = s.msgSeq)
    (hactive : s'.inFlight.isSome ∨ queued ≠ [] → s'.activeContact = s.activeContact)
    (hcurrent : queued ≠ [] → s.contactActive s.activeContact = true →
      s'.contactActive s.activeContact = true) : ChatInv s' done queued where
  typed := by rw [htyped, hflight, h.typed]
  sent := by rw [hsent, h.sent]
  flight := by
    intro f hf
    rw [hactive (Or.inl (Option.isSome_of_mem hf))]
    exact h.flight f (hflight ▸ hf)
  queue := by rw [hqueue, h.queue]
  last := h.last
  current := by
    intro t ht
    have hne : queued ≠ [] := List.ne_nil_of_mem ht
    obtain ⟨hcontact, hshown, hnumber, hact⟩ := h.current t ht
    rw [TypedText.Current, hactive (Or.inr hne), hscreen, hseq]
    exact ⟨hcontact, hshown, hnumber, hcurrent hne hact⟩
  numbered := by
    obtain ⟨hscreens, hnumbers, hdistinct, hearlier⟩ := h.numbered
    exact ⟨by rwa [htyped, hscreen], by rwa [htyped, hscreen, hseq], by rwa [htyped],
      by rwa [hflight, htyped, hscreen]⟩

/-- An empty queue holds no typed text. -/
theorem ChatInv.queued_eq_nil {s : ChatTasks} {done : List (TypedText × Bool)}
    {queued : List TypedText} (h : ChatInv s done queued) (hempty : s.kbdQueue = []) :
    queued = [] := by
  have hmap := h.queue
  rw [hempty] at hmap
  exact List.map_eq_nil_iff.1 hmap.symm

/-- A number that is free goes to a new bubble. -/
theorem BubblesNumbered.type {s : ChatTasks} (h : BubblesNumbered s) (hfree : s.NumberFree)
    (contact : ℕ) (text : List UInt8) (queue : List (List UInt8)) :
    BubblesNumbered { s with
      msgSeq := s.msgSeq + 1
      typed := s.typed ++ [⟨contact, s.screen, s.msgSeq + 1, text⟩]
      kbdQueue := queue } := by
  obtain ⟨hroom, hflight⟩ := hfree
  have hnext : (s.msgSeq + 1).toNat = s.msgSeq.toNat + 1 := by
    have hlt := UInt32.lt_iff_toNat_lt.1 hroom
    have hmax : UInt32.toNat 4294967295 = 4294967295 := rfl
    rw [UInt32.toNat_add, UInt32.toNat_one, Nat.mod_eq_of_lt (by omega)]
  have hnew : ∀ t ∈ s.typed, t.screen = s.screen → t.seq ≠ s.msgSeq + 1 := by
    intro t ht hscreen heq
    have hle := UInt32.le_iff_toNat_le.1 (h.number t ht hscreen)
    rw [heq, hnext] at hle
    omega
  refine ⟨fun t ht => ?_, fun t ht hscreen => ?_, fun t ht u hu hscreen hseq => ?_,
    fun f hf hscreen t ht hshown => ?_⟩
  · rcases List.mem_append.1 ht with ht | ht
    · exact h.screen t ht
    · obtain rfl := List.mem_singleton.1 ht
      exact Nat.le_refl _
  · rcases List.mem_append.1 ht with ht | ht
    · have hle := UInt32.le_iff_toNat_le.1 (h.number t ht hscreen)
      exact UInt32.le_iff_toNat_le.2 (by dsimp only; omega)
    · obtain rfl := List.mem_singleton.1 ht
      exact UInt32.le_refl _
  · rcases List.mem_append.1 ht with ht | ht <;> rcases List.mem_append.1 hu with hu | hu
    · exact h.distinct t ht u hu hscreen hseq
    · obtain rfl := List.mem_singleton.1 hu
      exact absurd hseq (hnew t ht hscreen)
    · obtain rfl := List.mem_singleton.1 ht
      exact absurd hseq.symm (hnew u hu hscreen.symm)
    · rw [List.mem_singleton.1 ht, List.mem_singleton.1 hu]
  · rcases List.mem_append.1 ht with ht | ht
    · exact h.earlier f hf hscreen t ht hshown
    · obtain rfl := List.mem_singleton.1 ht
      exact ((hflight f hf).resolve_left hscreen).symm

/-- A new screen has no bubbles yet. -/
theorem BubblesNumbered.close {s : ChatTasks} (h : BubblesNumbered s) :
    BubblesNumbered s.closeChat := by
  have hold : ∀ t ∈ s.typed, t.screen ≠ s.screen + 1 := fun t ht heq => by
    have hle := h.screen t ht
    omega
  exact ⟨fun t ht => (h.screen t ht).trans (Nat.le_succ _), fun t ht heq => absurd heq (hold t ht),
    h.distinct, fun _ _ _ t ht heq => absurd heq (hold t ht)⟩

/-- A text typed in the chat of the active contact, with an empty queue, is the last one. -/
theorem ChatInv.doSendMessage {s : ChatTasks} {done : List (TypedText × Bool)}
    {queued : List TypedText} (h : ChatInv s done queued) {text : List UInt8} {migrating : Bool}
    (hsettled : ChatStep.Settled s (.sendText text migrating)) :
    ∃ queued', ChatInv (s.doSendMessage text migrating) done queued' := by
  rw [ChatTasks.doSendMessage]
  by_cases hblocked : s.chatOpen = false ∨ text = [] ∨ migrating = true
  · rw [if_pos hblocked]
    exact ⟨queued, h⟩
  · obtain ⟨hshown, hactive, hempty, hlength, hfree⟩ := hsettled.resolve_left hblocked
    obtain rfl := h.queued_eq_nil hempty
    rw [if_neg hblocked]
    simp only [ChatTasks.chatSendCb]
    rw [if_pos (by rw [hempty]; decide), List.take_of_length_le hlength]
    refine ⟨[⟨s.chatContact, s.screen, s.msgSeq + 1, text⟩], ?_, h.sent, h.flight, ?_,
      Nat.le_refl 1, ?_, h.numbered.type hfree _ _ _⟩
    · simp [h.typed]
    · simp [hempty]
    · intro t ht
      obtain rfl := List.mem_singleton.1 ht
      exact ⟨hshown, rfl, rfl, hactive⟩

/-- The App Task takes the text with the contact and the number it was typed with. -/
theorem ChatInv.takeText {s : ChatTasks} {done : List (TypedText × Bool)}
    {queued : List TypedText} (h : ChatInv s done queued) :
    ∃ queued', ChatInv s.takeText done queued' := by
  rw [ChatTasks.takeText]
  cases hflight : s.inFlight with
  | some f => exact ⟨queued, h⟩
  | none =>
    cases queued with
    | nil =>
      rw [h.queue]
      exact ⟨[], h⟩
    | cons t queued =>
      obtain rfl : queued = [] := List.length_eq_zero_iff.1 (Nat.le_zero.1 (Nat.le_of_succ_le_succ
        h.last))
      obtain ⟨hcontact, hscreen, hseq, hactive⟩ := h.current t List.mem_cons_self
      have htyped := h.typed
      rw [h.queue]
      simp only [List.map_cons, List.map_nil]
      rw [if_pos hactive]
      refine ⟨[], ?_, h.sent, ?_, rfl, Nat.zero_le 1, (fun _ hu => absurd hu List.not_mem_nil),
        h.numbered.screen, h.numbered.number, h.numbered.distinct, ?_⟩
      · rw [htyped, hflight]
        simp [TextInFlight.typed, ← hcontact, ← hscreen, ← hseq]
      · rintro f ⟨⟩
        rfl
      · rintro f ⟨⟩ hne
        exact absurd rfl hne

/-- The text that was being sent has arrived. -/
theorem ChatInv.finishText {s : ChatTasks} {done : List (TypedText × Bool)}
    {queued : List TypedText} (h : ChatInv s done queued) (success : Bool) :
    ∃ done', ChatInv (s.finishText success) done' queued := by
  rw [ChatTasks.finishText]
  cases hflight : s.inFlight with
  | none => exact ⟨done, h⟩
  | some f =>
    refine ⟨done ++ [(f.typed, success)], ?_, ?_, (fun _ hf => nomatch hf), h.queue, h.last,
      h.current, h.numbered.screen, h.numbered.number, h.numbered.distinct, nofun⟩
    · simp [h.typed, hflight]
    · rw [← h.flight f hflight]
      simp [h.sent, TypedText.arrived, TextInFlight.typed]

/-- A settled step keeps the invariant. -/
theorem ChatInv.step {s : ChatTasks} {done : List (TypedText × Bool)}
    {queued : List TypedText} (h : ChatInv s done queued)
    {step : ChatStep} (hsettled : step.Settled s) :
    ∃ done' queued', ChatInv (s.step step) done' queued' := by
  cases step with
  | openChat idx room =>
    simp only [ChatTasks.step, ChatTasks.openChat, ChatTasks.smpSetActiveContact]
    split
    · rename_i hvalid
      refine ⟨done, queued, h.congr rfl rfl rfl rfl rfl rfl (fun hbusy => ?_) fun _ => id⟩
      rcases hsettled with ⟨hqueue, hflight⟩ | rfl | hno
      · rcases hbusy with hsome | hne
        · simp [hflight] at hsome
        · exact absurd (h.queued_eq_nil hqueue) hne
      · rfl
      · exact absurd hvalid hno
    · exact ⟨done, queued, h⟩
  | closeChat =>
    obtain rfl := h.queued_eq_nil hsettled
    exact ⟨done, [], h.typed, h.sent, h.flight, h.queue, h.last, nofun, h.numbered.close⟩
  | uiEvent =>
    simp only [ChatTasks.step, ChatTasks.uiEvent]
    split
    · exact ⟨done, queued, h⟩
    · exact ⟨done, queued, h.congr rfl rfl rfl rfl rfl rfl (fun _ => rfl) fun _ => id⟩
  | sendText text migrating => exact ⟨done, h.doSendMessage hsettled⟩
  | takeText => exact ⟨done, h.takeText⟩
  | finishText success => exact (h.finishText success).imp fun _ hdone => ⟨queued, hdone⟩
  | handshakeDone hsContact =>
    simp only [ChatTasks.step, ChatTasks.handshakeDone]
    split
    · rename_i hidle
      refine ⟨done, queued, h.congr rfl rfl rfl rfl rfl rfl (fun hbusy => ?_) fun _ => id⟩
      rcases hbusy with hsome | hne
      · rw [Option.isNone_iff_eq_none.1 hidle] at hsome
        exact absurd hsome Bool.false_ne_true
      · exact hsettled.resolve_left fun hempty => hne (h.queued_eq_nil hempty)
    · exact ⟨done, queued, h⟩
  | setContact idx active =>
    refine ⟨done, queued, h.congr rfl rfl rfl rfl rfl rfl (fun _ => rfl) fun hne hactive => ?_⟩
    change Function.update s.contactActive idx active s.activeContact = true
    rcases hsettled with hempty | hother | rfl
    · exact absurd (h.queued_eq_nil hempty) hne
    · rwa [Function.update_of_ne hother.symm]
    · by_cases hsame : s.activeContact = idx
      · rw [hsame, Function.update_self]
      · rwa [Function.update_of_ne hsame]

/-- While the globals belong to the text that waits, each text is encrypted for the contact
it was typed for, stored in that contact's history and reported with its own number, which is no
other bubble's. -/
theorem typed_texts_reach_their_contact (contactActive : ℕ → Bool) {steps : List ChatStep}
    (hsettled : StepsMeet ChatTasks.step (fun s step => step.Settled s)
      (ChatTasks.boot contactActive) steps) :
    (runFrom ChatTasks.step (ChatTasks.boot contactActive) steps).TextsReach := by
  have hboot : ChatInv (ChatTasks.boot contactActive) [] [] :=
    ⟨rfl, rfl, (fun _ hf => nomatch hf), rfl, Nat.zero_le 1, nofun, nofun, nofun, nofun, nofun⟩
  have hstep : ∀ s (step : ChatStep), (∃ done queued, ChatInv s done queued) → step.Settled s →
      ∃ done queued, ChatInv (s.step step) done queued := by
    rintro s step ⟨done, queued, h⟩ hstep
    exact h.step hstep
  obtain ⟨done, queued, h⟩ := hsettled.invariant hstep ⟨[], [], hboot⟩
  exact h.textsReach

/-- Texts typed one after the other in two chats; sending the second one fails. -/
theorem typed_texts_reach_their_contact_two_chats :
    (runFrom ChatTasks.step (ChatTasks.boot fun _ => true)
      [.openChat 1 true, .uiEvent, .sendText [0x68, 0x69] false, .takeText, .finishText true,
        .handshakeDone 2, .openChat 3 true, .uiEvent, .sendText [0x79, 0x6F] false,
        .takeText, .finishText false]).TextsReach :=
  typed_texts_reach_their_contact (fun _ => true) (by decide)

/-- A handshake with contact 2 ends while the chat of contact 1 is shown; the next text typed
there is encrypted for contact 2. -/
theorem typed_text_sent_to_another_contact :
    ¬ (runFrom ChatTasks.step (ChatTasks.boot fun _ => true)
      [.openChat 1 true, .uiEvent, .handshakeDone 2, .sendText [0x68, 0x69] false, .takeText,
        .finishText true]).TextsReach := by
  rintro ⟨⟨done, waiting, htyped, hsent, hqueue⟩, -⟩
  have hwaiting : waiting = [] := List.map_eq_nil_iff.1 hqueue.symm
  rw [hwaiting, List.append_nil] at htyped
  have hcontacts : (done.map Prod.fst).map (fun t => some t.contact) =
      (done.map fun d => d.1.arrived d.2).map SentText.encryptedFor := by
    rw [List.map_map, List.map_map]
    rfl
  rw [← htyped, ← hsent] at hcontacts
  revert hcontacts
  decide

end SimpleGo
