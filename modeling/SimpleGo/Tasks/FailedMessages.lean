import Mathlib.Data.List.Pairwise
import SimpleGo.Tasks.MessageStatus
import SimpleGo.Ui.StatusLabels

/-!
# Failed messages

Whether a message whose sending failed stays failed: in its record on the card, in a loaded
history whatever the high-water mark is, and in the bubbles of the chat. Records keep the
status, but a bubble from the history has no failed mark: every status from
`HISTORY_STATUS_DELIVERED` on is shown as delivered. A live bubble gets its mark by the number
that was given out last, when the App Task comes to the message.
-/

namespace SimpleGo

open Lib

variable {K : Type}

/-! ### The property -/

/-- The history of a slot has a record of the message, in a file with delivery statuses. -/
def HasRecord (H : HistoryPrimitives K) (dev : HistoryDevice K) (slot : UInt8) (k : ℕ)
    (msg : HistoryMessage) : Prop :=
  ∃ (header : HistoryHeader) (log : List HistoryMessage),
    dev.sd (historyBuildPath slot) =
        some (historyFile H (historyDeriveKey H dev.masterKey slot) slot header log) ∧
      header.version = historyVersion ∧ log[k]? = some msg

namespace MessageTasks

/-- The bubble was created for the typed message, live or from a history. -/
def HasBubble (s : MessageTasks K) (message : ℕ) (b : Bubble) : Prop :=
  b.message = some message ∨ (b.id, some message) ∈ s.drawnOf

instance (s : MessageTasks K) (message : ℕ) (b : Bubble) : Decidable (s.HasBubble message b) :=
  inferInstanceAs (Decidable (_ ∨ _))

/-- The bubble still shows three dots, and the event that makes it failed is in the queue. -/
def FailureComes (s : MessageTasks K) (b : Bubble) : Prop :=
  b.mark = some .sending ∧ ∃ entry ∈ s.chat.bubbles.trackedMsgs, entry.active = true ∧
    entry.statusLabel = some b.id ∧ ⟨entry.msgSeq, msgStatusFailed⟩ ∈ s.statusEvents

/-- Every bubble of a failed message shows it as failed, or is about to. -/
def ShownFailed (s : MessageTasks K) : Prop :=
  ∀ b ∈ s.chat.bubbles.children, ∀ message ∈ s.failed, s.HasBubble message b →
    b.mark = some .failed ∨ s.FailureComes b

/-- A failed message is stored, loaded and shown as failed. -/
structure FailedStay (H : HistoryOpening K) (s : MessageTasks K) : Prop where
  stored : ∀ message ∈ s.failed, ∃ slot < 128, ∃ k msg,
    (s.logOf slot)[k]? = some (some message) ∧ HasRecord H.toHistoryPrimitives s.dev slot k msg ∧
      msg.direction = historyDirSent ∧ msg.deliveryStatus = historyStatusFailed
  loaded : ∀ slot < 128, ∀ count : ℤ, count ≤ historyMaxLoad → ∀ (faults : LoadFaults) (heap : Mem),
    faults.Clean ((s.dev.sd (historyBuildPath slot)).getD []).length →
      ∀ k : ℕ, ∀ message ∈ s.failed, ((s.logOf slot).rtake count.toNat)[k]? = some (some message) →
        ∃ msg : HistoryMessage,
          (smpHistoryLoadRecent H s.dev slot count faults heap).2[k]? = some msg ∧
            msg.deliveryStatus = historyStatusFailed
  shown : s.ShownFailed

/-! ### The condition -/

/-- Every bubble of the message shows three dots, and its label waits under the last number. -/
def WaitsUnderLast (s : MessageTasks K) (message : ℕ) : Prop :=
  ∀ b ∈ s.chat.bubbles.children, s.HasBubble message b →
    b.mark = some .sending ∧ ∃ entry ∈ s.chat.bubbles.trackedMsgs, entry.active = true ∧
      entry.statusLabel = some b.id ∧ entry.msgSeq = s.chat.bubbles.msgSeqCounter

instance (s : MessageTasks K) : DecidablePred s.WaitsUnderLast := fun _ =>
  inferInstanceAs (Decidable (∀ _ ∈ _, _))

/-- None of the messages at some indices has failed. -/
def NoneFailed (s : MessageTasks K) (labels : List (Option ℕ)) (indices : List ℕ) : Prop :=
  ∀ i ∈ indices, ∀ message ∈ labels[i]?.join, message ∉ s.failed

/-- The next status event makes no waiting label of a failed message anything but failed. -/
def EventSparesFailed (s : MessageTasks K) : Prop :=
  ∀ event ∈ s.statusEvents.head?, event.status ≠ msgStatusFailed →
    ∀ entry ∈ s.chat.bubbles.trackedMsgs, entry.active = true → entry.msgSeq = event.msgSeq →
      ∀ b ∈ s.chat.bubbles.children, entry.statusLabel = some b.id →
        ∀ message ∈ b.message, message ∉ s.failed

/-- The next typed message goes to an active contact and is appended without faults; if its
sending fails, its label waits under the last number, and the queue takes the event. -/
def ProcessesRight (s : MessageTasks K) (slot : UInt8) (outcome : SendOutcome)
    (timestamp : Int64) (faults : AppendFaults) (queued : Bool) : Prop :=
  ∀ typed ∈ s.kbdQueue.head?, slot < 128 ∧ (s.logOf slot).length + 1 < 65536 ∧
    outcome ≠ .inactive ∧
    (∀ status, faults.Clean (historyMessageOf historyDirSent status timestamp typed.text)) ∧
    (outcome = .failed → queued = true ∧ s.WaitsUnderLast typed.message)

end MessageTasks

/-- The operation keeps failed messages failed. The card works and has room, no label is
deleted while it waits, failed messages are not rendered from batch or cache, a failed sending
finds its label waiting, and no other status event finds the label of a failed message. -/
def MessageOp.KeepsFailed (s : MessageTasks K) : MessageOp → Prop
  | .create | .cleanup => True
  | .switchContact contactIdx => (ChatOp.switchContact contactIdx).KeepsLabels s.chat
  | .clearContact contactIdx => (ChatOp.clearContact contactIdx).KeepsLabels s.chat
  | .renderTick rooms => s.NoneFailed s.batchOf (s.chat.renderedBatch rooms)
  | .scroll nearTop nearBottom rooms =>
    (ChatOp.scroll nearTop nearBottom rooms).KeepsLabels s.chat ∧
      s.NoneFailed s.cacheOf (s.chat.renderedCache nearTop nearBottom rooms)
  | .typeText text room => (ChatOp.sendMessage text room).KeepsLabels s.chat
  | .showMessage text contactIdx room =>
    (ChatOp.addMessage text false contactIdx room).KeepsLabels s.chat
  | .handleStatusEvent => s.chat.screen = true → s.EventSparesFailed
  | .processKeyboard slot outcome timestamp faults queued =>
    s.ProcessesRight slot outcome timestamp faults queued
  | .receive slot text timestamp faults =>
    slot < 128 ∧ (s.logOf slot).length + 1 < 65536 ∧
      faults.Clean (historyMessageOf historyDirReceived 0 timestamp text)
  | .receipt slot _ _ _ faults => slot < 128 ∧ faults.Clean
  | .reload slot faults _ markFaults _ _ =>
    slot < 128 ∧ faults.Clean ((s.dev.sd (historyBuildPath slot)).getD []).length ∧
      markFaults.Clean ∧
      (s.chat.screen = true → s.logOf slot ≠ [] →
        ∀ b ∈ s.chat.bubbles.children, s.chat.bubbles.Untracked b)

namespace MessageTasks

/-! ### The table of the labels -/

/-- Two labels that wait have different numbers. -/
def Apart (a b : TrackedMsg) : Prop := a.active = true → b.active = true → a.msgSeq ≠ b.msgSeq

instance : Std.Symm Apart := ⟨fun _ _ hab hb ha heq => hab ha hb heq.symm⟩

/-- All labels that wait have different numbers. -/
def NumbersApart (entries : List TrackedMsg) : Prop := entries.Pairwise Apart

/-- One number has one waiting label. -/
theorem NumbersApart.eq {entries : List TrackedMsg} (h : NumbersApart entries)
    {a b : TrackedMsg} (ha : a ∈ entries) (hb : b ∈ entries) (hactive : a.active = true)
    (hactive' : b.active = true) (hsame : a.msgSeq = b.msgSeq) : a = b := by
  by_contra hne
  exact List.Pairwise.forall h ha hb hne hactive hactive' hsame

/-- A label that waits goes on waiting when another one is tracked. -/
theorem mem_trackLabel_of_active {label : ℕ} {seq : UInt32} {entries : List TrackedMsg}
    {entry : TrackedMsg} (h : entry ∈ entries) (hactive : entry.active = true) :
    entry ∈ trackLabel label seq entries := by
  induction entries with
  | nil => exact h
  | cons first rest ih =>
    rw [trackLabel]
    by_cases hfirst : first.active = true
    · rw [if_pos hfirst]
      rcases List.mem_cons.mp h with rfl | h
      · exact List.mem_cons_self
      · exact List.mem_cons_of_mem _ (ih h)
    · rw [if_neg hfirst]
      rcases List.mem_cons.mp h with rfl | h
      · exact absurd hactive hfirst
      · exact List.mem_cons_of_mem _ h

/-- A label with another number goes on waiting when one is done. -/
theorem mem_finishTracked_of_ne {seq : UInt32} {entries : List TrackedMsg} {entry : TrackedMsg}
    (h : entry ∈ entries) (hne : entry.msgSeq ≠ seq) : entry ∈ finishTracked seq entries := by
  induction entries with
  | nil => exact h
  | cons first rest ih =>
    rw [finishTracked]
    by_cases hfirst : (first.active && first.msgSeq == seq) = true
    · rw [if_pos hfirst]
      rcases List.mem_cons.mp h with rfl | h
      · rw [Bool.and_eq_true, beq_iff_eq] at hfirst
        exact absurd hfirst.2 hne
      · exact List.mem_cons_of_mem _ h
    · rw [if_neg hfirst]
      rcases List.mem_cons.mp h with rfl | h
      · exact List.mem_cons_self
      · exact List.mem_cons_of_mem _ (ih h)

/-- A label is tracked under a number that none of the others has. -/
theorem NumbersApart.track {entries : List TrackedMsg} (h : NumbersApart entries) (label : ℕ)
    {seq : UInt32} (hnew : ∀ entry ∈ entries, entry.active = true → entry.msgSeq ≠ seq) :
    NumbersApart (trackLabel label seq entries) := by
  induction entries with
  | nil => exact .nil
  | cons first rest ih =>
    obtain ⟨hfirst, hrest⟩ := List.pairwise_cons.mp h
    rw [trackLabel]
    by_cases hactive : first.active = true
    · rw [if_pos hactive]
      refine List.pairwise_cons.mpr ⟨fun entry hentry => ?_,
        ih hrest fun entry hentry => hnew entry (List.mem_cons_of_mem _ hentry)⟩
      rcases ChatBubbles.mem_trackLabel hentry with hold | rfl
      · exact hfirst entry hold
      · exact fun _ _ => hnew first List.mem_cons_self hactive
    · rw [if_neg hactive]
      exact List.pairwise_cons.mpr ⟨fun entry hentry _ hwaits heq =>
        hnew entry (List.mem_cons_of_mem _ hentry) hwaits heq.symm, hrest⟩

/-- A label that is done leaves the others apart. -/
theorem NumbersApart.finish {entries : List TrackedMsg} (h : NumbersApart entries) (seq : UInt32) :
    NumbersApart (finishTracked seq entries) := by
  induction entries with
  | nil => exact .nil
  | cons first rest ih =>
    obtain ⟨hfirst, hrest⟩ := List.pairwise_cons.mp h
    rw [finishTracked]
    by_cases hdone : (first.active && first.msgSeq == seq) = true
    · rw [if_pos hdone]
      exact List.pairwise_cons.mpr ⟨fun _ _ hactive => absurd hactive Bool.false_ne_true, hrest⟩
    · rw [if_neg hdone]
      refine List.pairwise_cons.mpr ⟨fun entry hentry hactive hactive' => ?_, ih hrest⟩
      exact hfirst entry (ChatBubbles.mem_finishTracked hentry hactive') hactive hactive'

/-! ### The chat -/

/-- What holds of the chat: the labels are valid, and failed messages are shown as failed. -/
structure ScreenInv (s : MessageTasks K) : Prop where
  labels : s.chat.LabelsInv
  screenless : s.chat.screen = false → s.chat.bubbles.children = []
  apart : NumbersApart s.chat.bubbles.trackedMsgs
  drawn_lt : ∀ drawn ∈ s.drawnOf, drawn.1 < s.chat.bubbles.created
  drawn_plain : ∀ b ∈ s.chat.bubbles.children, ∀ label, (b.id, label) ∈ s.drawnOf →
    b.message = none
  queue_lt : ∀ typed ∈ s.kbdQueue, typed.message < s.chat.sent.length
  failed_lt : ∀ message ∈ s.failed, message < s.chat.sent.length
  shown : s.ShownFailed

variable {s s' : MessageTasks K}

/-- Failed messages stay shown when no bubble of one is new, no label stops to wait, and no
event is lost. -/
theorem ShownFailed.transfer (h : s.ShownFailed)
    (hold : ∀ b ∈ s'.chat.bubbles.children, ∀ message ∈ s'.failed, s'.HasBubble message b →
      b ∈ s.chat.bubbles.children ∧ message ∈ s.failed ∧ s.HasBubble message b)
    (htracked : ∀ entry ∈ s.chat.bubbles.trackedMsgs, entry.active = true →
      entry ∈ s'.chat.bubbles.trackedMsgs)
    (hevents : ∀ event ∈ s.statusEvents, event ∈ s'.statusEvents) : s'.ShownFailed := by
  intro b hb message hmessage hhas
  obtain ⟨hb, hmessage, hhas⟩ := hold b hb message hmessage hhas
  rcases h b hb message hmessage hhas with hmark | ⟨hmark, entry, hentry, hactive, hlabel, hevent⟩
  · exact Or.inl hmark
  · exact Or.inr ⟨hmark, entry, htracked entry hentry hactive, hactive, hlabel, hevents _ hevent⟩

/-- What is not on the screen may change. -/
theorem ScreenInv.congr (h : s.ScreenInv) (hchat : s'.chat = s.chat)
    (hqueue : s'.kbdQueue = s.kbdQueue) (hevents : s'.statusEvents = s.statusEvents)
    (hfailed : s'.failed = s.failed) (hdrawn : s'.drawnOf = s.drawnOf) : s'.ScreenInv := by
  obtain ⟨dev, chat, kbdQueue, msgMappings, statusEvents, failed, logOf, batchOf, cacheOf,
    drawnOf⟩ := s'
  subst hchat hqueue hevents hfailed hdrawn
  exact ⟨h.labels, h.screenless, h.apart, h.drawn_lt, h.drawn_plain, h.queue_lt, h.failed_lt,
    h.shown⟩

/-- The labels of new bubbles, one for each index. -/
theorem mem_drawnLabels {created : ℕ} {labels : List (Option ℕ)} {indices : List ℕ} {id : ℕ}
    {label : Option ℕ} (h : (id, label) ∈ drawnLabels created labels indices) :
    ∃ k i, indices[k]? = some i ∧ id = created + k ∧ label = labels[i]?.join := by
  obtain ⟨⟨i, k⟩, hmem, heq⟩ := List.mem_map.mp h
  obtain ⟨rfl, rfl⟩ := Prod.mk.inj heq
  exact ⟨k, i, List.mk_mem_zipIdx_iff_getElem?.mp hmem, rfl, rfl⟩

/-- Bubbles are deleted, or created from batch or cache for messages that have not failed. -/
theorem ScreenInv.draws (h : s.ScreenInv) {chat : Chat} {source : List CachedMessage}
    {labels : List (Option ℕ)} {indices : List ℕ}
    (hdraws : Chat.Draws source s.chat chat indices) (hlabels : chat.LabelsInv)
    (hscreen : s.chat.screen = false → indices = []) (hnone : s.NoneFailed labels indices)
    (hs' : s' = { s with
      chat := chat
      drawnOf := s.drawnOf ++ drawnLabels s.chat.bubbles.created labels indices }) :
    s'.ScreenInv := by
  subst hs'
  have hnew : ∀ {id : ℕ} {label : Option ℕ}, (id, label) ∈ drawnLabels s.chat.bubbles.created
      labels indices → s.chat.bubbles.created ≤ id ∧ id < chat.bubbles.created ∧
        ∀ message ∈ label, message ∉ s.failed := by
    intro id label hmem
    obtain ⟨k, i, hk, rfl, rfl⟩ := mem_drawnLabels hmem
    have hlt := (List.getElem?_eq_some_iff.mp hk).1
    refine ⟨Nat.le_add_right _ _, ?_, hnone i (List.mem_of_getElem? hk)⟩
    rw [hdraws.created]
    exact Nat.add_lt_add_left hlt _
  have hold : ∀ b ∈ s.chat.bubbles.children, b.id < s.chat.bubbles.created := h.labels.fresh
  refine ⟨hlabels, ?_, hdraws.tracked ▸ h.apart, ?_, ?_, hdraws.sent ▸ h.queue_lt,
    hdraws.sent ▸ h.failed_lt, h.shown.transfer ?_ ?_ fun _ => id⟩
  · intro hno
    have hno' := hdraws.screen.symm.trans hno
    refine List.eq_nil_iff_forall_not_mem.mpr fun b hb => ?_
    rcases hdraws.children b hb with hb | ⟨k, i, m, hk, -⟩
    · rw [h.screenless hno'] at hb
      cases hb
    · rw [hscreen hno'] at hk
      cases hk
  · intro drawn hdrawn
    rcases List.mem_append.mp hdrawn with hdrawn | hdrawn
    · have hlt := h.drawn_lt drawn hdrawn
      rw [hdraws.created]
      exact Nat.lt_of_lt_of_le hlt (Nat.le_add_right _ _)
    · exact (hnew hdrawn).2.1
  · intro b hb label hdrawn
    rcases hdraws.children b hb with hb | ⟨k, i, m, -, -, -, hdrawnAs⟩
    · rcases List.mem_append.mp hdrawn with hdrawn | hdrawn
      · exact h.drawn_plain b hb label hdrawn
      · exact absurd (hold b hb) (Nat.not_lt.mpr (hnew hdrawn).1)
    · exact hdrawnAs.2.2.1
  · intro b hb message hfailed hhas
    have hplain : (b.id, some message) ∉ drawnLabels s.chat.bubbles.created labels indices :=
      fun hmem => (hnew hmem).2.2 message rfl hfailed
    have hhas' : s.HasBubble message b :=
      hhas.imp id fun hmem => (List.mem_append.mp hmem).resolve_right hplain
    rcases hdraws.children b hb with hb | ⟨k, i, m, -, -, hid, hdrawnAs⟩
    · exact ⟨hb, hfailed, hhas'⟩
    · rcases hhas' with hown | hmem
      · rw [hdrawnAs.2.2.1] at hown
        cases hown
      · have hlt := h.drawn_lt _ hmem
        rw [hid] at hlt
        exact absurd hlt (Nat.not_lt.mpr (Nat.le_add_right _ _))
  · intro entry hentry _
    rw [hdraws.tracked]
    exact hentry

/-- Bubbles are deleted at most. -/
theorem ScreenInv.delete (h : s.ScreenInv) {source : List CachedMessage}
    (hdraws : Chat.Draws source s.chat s'.chat []) (hlabels : s'.chat.LabelsInv)
    (hqueue : s'.kbdQueue = s.kbdQueue) (hevents : s'.statusEvents = s.statusEvents)
    (hfailed : s'.failed = s.failed) (hdrawn : s'.drawnOf = s.drawnOf) : s'.ScreenInv := by
  have hnone : s.NoneFailed [] [] := nofun
  have hkeeps := h.draws hdraws hlabels (fun _ => rfl) hnone rfl
  exact hkeeps.congr rfl hqueue hevents hfailed (hdrawn.trans (List.append_nil _).symm)

/-- A live message is added that has not failed, tracked under a new number or not at all. -/
theorem ScreenInv.addLive (h : s.ScreenInv) {c : Chat} (hchildren : c.bubbles.children =
      s.chat.bubbles.children) (htracked : c.bubbles.trackedMsgs = s.chat.bubbles.trackedMsgs)
    (hcreated : c.bubbles.created = s.chat.bubbles.created) (hscreen : c.screen = true)
    (hsent : s.chat.sent.length ≤ c.sent.length) {isOutgoing room : Bool} {message : Option ℕ}
    (hadds : c.AddsLive s'.chat isOutgoing message room) (hlabels : s'.chat.LabelsInv)
    (hnumber : isOutgoing = true → ∀ entry ∈ s.chat.bubbles.trackedMsgs, entry.active = true →
      entry.msgSeq ≠ c.bubbles.msgSeqCounter)
    (hmessage : ∀ own ∈ message, own ∉ s.failed)
    (hqueue : ∀ typed ∈ s'.kbdQueue, typed.message < c.sent.length)
    (hevents : s'.statusEvents = s.statusEvents) (hfailed : s'.failed = s.failed)
    (hdrawn : s'.drawnOf = s.drawnOf) : s'.ScreenInv := by
  have hnew : ∀ b : Bubble, b.id = c.bubbles.created → ∀ label, (b.id, label) ∉ s.drawnOf := by
    intro b hid label hmem
    have hlt := h.drawn_lt _ hmem
    rw [hid, hcreated] at hlt
    exact Nat.lt_irrefl _ hlt
  refine ⟨hlabels, fun hno => ?_, ?_, ?_, ?_, ?_, ?_, h.shown.transfer ?_ ?_ ?_⟩
  · rw [hadds.screen, hscreen] at hno
    cases hno
  · rw [hadds.tracked, htracked]
    by_cases hout : isOutgoing = true ∧ room = true
    · rw [if_pos hout]
      exact h.apart.track _ (hnumber hout.1)
    · rw [if_neg hout]
      exact h.apart
  · rw [hdrawn]
    intro drawn hmem
    exact Nat.lt_of_lt_of_le (hcreated ▸ h.drawn_lt drawn hmem) hadds.created
  · rw [hdrawn]
    intro b hb label hmem
    rcases hadds.children b hb with hold | ⟨hid, -, -⟩
    · exact h.drawn_plain b (hchildren ▸ hold) label hmem
    · exact absurd hmem (hnew b hid label)
  · rw [hadds.sent]
    exact hqueue
  · rw [hadds.sent, hfailed]
    exact fun message hmem => Nat.lt_of_lt_of_le (h.failed_lt message hmem) hsent
  · rw [hfailed]
    intro b hb own hmem hhas
    have hhas' : s.HasBubble own b := hhas.imp id fun hdrawn' => hdrawn ▸ hdrawn'
    rcases hadds.children b hb with hold | ⟨hid, -, hown⟩
    · exact ⟨hchildren ▸ hold, hmem, hhas'⟩
    · rcases hhas' with hhas' | hhas'
      · exact absurd hmem (hmessage own (hown.symm.trans hhas'))
      · exact absurd hhas' (hnew b hid _)
  · intro entry hentry hactive
    rw [hadds.tracked, htracked]
    by_cases hout : isOutgoing = true ∧ room = true
    · rw [if_pos hout]
      exact mem_trackLabel_of_active hentry hactive
    · rw [if_neg hout]
      exact hentry
  · rw [hevents]
    exact fun _ => id

/-- The user sends a text. -/
theorem ScreenInv.typeText (h : s.ScreenInv) {text : List UInt8} {room : Bool}
    (hop : (ChatOp.sendMessage text room).KeepsLabels s.chat) :
    (s.typeText text room).ScreenInv := by
  unfold MessageTasks.typeText
  by_cases hskip : s.chat.screen = false ∨ text = []
  · rw [if_pos hskip]
    exact h
  · rw [if_neg hskip]
    have hlabels := h.labels.sendMessage hop
    have hready := hskip
    rw [not_or, Bool.not_eq_false] at hready
    have hadds := Chat.uiChatAddMessage_addsLive
      { s.chat with
        bubbles := s.chat.bubbles.chatBubbleNextSeq
        sent := s.chat.sent ++ [s.chat.bubbles.chatBubbleNextSeq.msgSeqCounter] }
      text true s.chat.activeContact (some s.chat.sent.length) room hready.1
    have hsend : s.chat.doSendMessage text room = Chat.uiChatAddMessage
      { s.chat with
        bubbles := s.chat.bubbles.chatBubbleNextSeq
        sent := s.chat.sent ++ [s.chat.bubbles.chatBubbleNextSeq.msgSeqCounter] }
      text true s.chat.activeContact (some s.chat.sent.length) room := if_neg hskip
    have hlen : (s.chat.sent ++ [s.chat.bubbles.chatBubbleNextSeq.msgSeqCounter]).length =
        s.chat.sent.length + 1 := List.length_append
    rw [← hsend] at hadds
    refine h.addLive (c := { s.chat with
      bubbles := s.chat.bubbles.chatBubbleNextSeq
      sent := s.chat.sent ++ [s.chat.bubbles.chatBubbleNextSeq.msgSeqCounter] })
      rfl rfl rfl hready.1 ?_ hadds hlabels ?_ ?_ ?_ rfl rfl rfl
    · exact Nat.le_of_lt (Nat.lt_of_lt_of_eq (Nat.lt_succ_self _) hlen.symm)
    · exact fun _ => (hop hready.1).2 hready.2
    · intro own hown hfailed
      rw [← Option.some.inj hown] at hfailed
      exact Nat.lt_irrefl _ (h.failed_lt _ hfailed)
    · have hqueue := h.queue_lt
      dsimp only
      rw [hlen]
      by_cases hroom : s.kbdQueue.length < 4
      · rw [if_pos hroom]
        intro typed htyped
        rcases List.mem_append.mp htyped with htyped | htyped
        · exact Nat.lt_succ_of_lt (hqueue typed htyped)
        · rw [List.mem_singleton.mp htyped]
          exact Nat.lt_succ_self _
      · rw [if_neg hroom]
        exact fun typed htyped => Nat.lt_succ_of_lt (hqueue typed htyped)

/-- A received message is shown. -/
theorem ScreenInv.showMessage (h : s.ScreenInv) {text : List UInt8} {contactIdx : ℕ} {room : Bool}
    (hop : (ChatOp.addMessage text false contactIdx room).KeepsLabels s.chat) :
    (s.showMessage text contactIdx room).ScreenInv := by
  have hlabels := h.labels.step hop
  by_cases hscreen : s.chat.screen = true
  · exact h.addLive rfl rfl rfl hscreen (Nat.le_refl _)
      (Chat.uiChatAddMessage_addsLive s.chat text false contactIdx none room hscreen) hlabels
      nofun nofun h.queue_lt rfl rfl rfl
  · have hsame : s.chat.uiChatAddMessage text false contactIdx none room = s.chat :=
      if_neg hscreen
    exact h.congr hsame rfl rfl rfl rfl

/-- The screen comes. -/
theorem ScreenInv.create (h : s.ScreenInv) :
    ScreenInv { s with chat := s.chat.uiChatCreate } :=
  ⟨h.labels, nofun, h.apart, h.drawn_lt, h.drawn_plain, h.queue_lt, h.failed_lt, h.shown⟩

/-- The screen goes, with all bubbles and the table. -/
theorem ScreenInv.cleanup (h : s.ScreenInv) : s.cleanup.ScreenInv := by
  have hop : ChatOp.cleanup.KeepsLabels s.chat := fun _ => ⟨nofun, trivial⟩
  have hlabels := h.labels.step hop
  by_cases hscreen : s.chat.screen = true
  · have hgone : s.chat.uiChatCleanup.bubbles = .blank s.chat.bubbles.created := by
      unfold Chat.uiChatCleanup
      rw [if_pos hscreen]
    have hsent : s.chat.uiChatCleanup.sent = s.chat.sent := by
      unfold Chat.uiChatCleanup
      rw [if_pos hscreen]
    have hnone : s.cleanup.chat.bubbles.children = [] := congrArg ChatBubbles.children hgone
    have hidle : s.cleanup.chat.bubbles.trackedMsgs = List.replicate 16 ⟨none, 0, false⟩ :=
      congrArg ChatBubbles.trackedMsgs hgone
    have hcreated : s.cleanup.chat.bubbles.created = s.chat.bubbles.created := by
      change s.chat.uiChatCleanup.bubbles.created = _
      rw [hgone]
      rfl
    refine ⟨hlabels, fun _ => hnone, ?_, ?_, ?_, hsent ▸ h.queue_lt, hsent ▸ h.failed_lt, ?_⟩
    · rw [hidle]
      exact List.pairwise_replicate.mpr (Or.inr fun hactive => nomatch hactive)
    · rw [hcreated]
      exact h.drawn_lt
    · rw [hnone]
      exact nofun
    · rw [ShownFailed, hnone]
      exact nofun
  · have hsame : s.chat.uiChatCleanup = s.chat := if_neg hscreen
    exact h.congr hsame rfl rfl rfl rfl

/-- Another contact's chat is shown. -/
theorem ScreenInv.switchContact (h : s.ScreenInv) {contactIdx : ℕ}
    (hop : (ChatOp.switchContact contactIdx).KeepsLabels s.chat) :
    (s.switchContact contactIdx).ScreenInv := by
  have hdraws : Chat.Draws [] s.chat (s.chat.uiChatSwitchContact contactIdx) [] := by
    unfold Chat.uiChatSwitchContact
    by_cases hscreen : s.chat.screen = true
    · rw [if_pos hscreen]
      exact .of_subset rfl rfl rfl rfl rfl nofun
    · rw [if_neg hscreen]
      exact .of_subset rfl rfl rfl rfl rfl fun _ => id
  exact h.delete hdraws (h.labels.step hop) rfl rfl rfl rfl

/-- The bubbles of a contact are deleted. -/
theorem ScreenInv.clearContact (h : s.ScreenInv) {contactIdx : Option ℕ}
    (hop : (ChatOp.clearContact contactIdx).KeepsLabels s.chat) :
    ScreenInv { s with chat := s.chat.uiChatClearContact contactIdx } := by
  have hdraws : Chat.Draws [] s.chat (s.chat.uiChatClearContact contactIdx) [] := by
    unfold Chat.uiChatClearContact
    by_cases hscreen : s.chat.screen = true
    · rw [if_pos hscreen]
      cases contactIdx with
      | none => exact .of_subset rfl rfl rfl rfl rfl nofun
      | some contactIdx =>
        exact .of_subset rfl rfl rfl rfl rfl fun _ hb => List.mem_of_mem_filter hb
    · rw [if_neg hscreen]
      exact .refl _ _
  exact h.delete hdraws (h.labels.step hop) rfl rfl rfl rfl

/-- A chunk is rendered that has no failed message. -/
theorem ScreenInv.renderTick (h : s.ScreenInv) {rooms : ℤ → Bool}
    (hop : s.NoneFailed s.batchOf (s.chat.renderedBatch rooms)) :
    (s.renderTick rooms).ScreenInv := by
  refine h.draws (Chat.renderTick_draws rooms s.chat) (h.labels.renderTick rooms) ?_ hop rfl
  intro hno
  exact if_neg fun hall => Bool.false_ne_true (hno.symm.trans hall.1)

/-- A scroll event renders no failed message. -/
theorem ScreenInv.scroll (h : s.ScreenInv) {nearTop nearBottom : Bool} {rooms : ℤ → Bool}
    (hop : (ChatOp.scroll nearTop nearBottom rooms).KeepsLabels s.chat)
    (hnone : s.NoneFailed s.cacheOf (s.chat.renderedCache nearTop nearBottom rooms)) :
    (s.scroll nearTop nearBottom rooms).ScreenInv := by
  refine h.draws (Chat.onScrollCb_draws s.chat nearTop nearBottom rooms) (h.labels.step hop) ?_
    hnone rfl
  intro hno
  have hallowed : s.chat.scrollAllowed = false := by
    rw [Chat.scrollAllowed, hno]
    rfl
  simp only [Chat.renderedCache, Chat.scrollsOlder, Chat.scrollsNewer, hallowed, Bool.false_and,
    Bool.false_eq_true, if_false]

/-- A history is loaded while no label waits. -/
theorem ScreenInv.historyBatch (h : s.ScreenInv) {loaded : List CachedMessage} {slot : ℕ}
    {alloc : Bool} {freeSize : ℕ} (hgone : s.chat.screen = true → loaded ≠ [] →
      ∀ b ∈ s.chat.bubbles.children, s.chat.bubbles.Untracked b)
    (hchat : s'.chat = s.chat.historyBatchEvent loaded slot alloc freeSize)
    (hqueue : s'.kbdQueue = s.kbdQueue) (hevents : s'.statusEvents = s.statusEvents)
    (hfailed : s'.failed = s.failed) (hdrawn : s'.drawnOf = s.drawnOf) : s'.ScreenInv := by
  have hop : (ChatOp.historyBatch loaded slot alloc freeSize).KeepsLabels s.chat := by
    refine fun hscreen => ⟨fun b hb => ?_, trivial⟩
    rw [ChatOp.deletes] at hb
    by_cases hempty : loaded = []
    · rw [if_pos hempty] at hb
      cases hb
    · rw [if_neg hempty] at hb
      exact hgone hscreen hempty b hb
  have hcached : ∀ batch, Chat.Draws [] s.chat
      (s.chat.uiChatCacheHistory batch slot alloc freeSize) [] := by
    intro batch
    unfold Chat.uiChatCacheHistory
    by_cases hscreen : s.chat.screen = false
    · rw [if_pos hscreen]
      exact .refl _ _
    · rw [if_neg hscreen]
      split_ifs
      · exact .of_subset rfl rfl rfl rfl rfl (List.nil_subset _)
      · exact .of_subset rfl rfl rfl rfl rfl (List.nil_subset _)
  have hdraws : Chat.Draws [] s.chat (s.chat.historyBatchEvent loaded slot alloc freeSize) [] := by
    unfold Chat.historyBatchEvent
    by_cases hempty : loaded.take 20 = []
    · rw [if_pos hempty]
      exact .of_subset rfl rfl rfl rfl rfl (fun _ hb => hb)
    · rw [if_neg hempty]
      exact (hcached (loaded.take 20)).congr rfl rfl rfl
  have hlabels := h.labels.step hop
  rw [Chat.step, ← hchat] at hlabels
  rw [← hchat] at hdraws
  exact h.delete hdraws hlabels hqueue hevents hfailed hdrawn

/-- A bubble after one label is set: another bubble, or the one with the label. -/
theorem mem_setMark {label : ℕ} {mark : StatusMark} {children : List Bubble} {b' : Bubble}
    (h : b' ∈ setMark label mark children) :
    ∃ b ∈ children, b'.id = b.id ∧ b'.message = b.message ∧
      (b.id = label → b'.mark = some mark) ∧ (b.id ≠ label → b' = b) := by
  obtain ⟨b, hb, rfl⟩ := List.mem_map.mp h
  refine ⟨b, hb, ?_⟩
  by_cases hid : b.id = label
  · rw [if_pos hid]
    exact ⟨rfl, rfl, fun _ => rfl, fun hne => absurd hid hne⟩
  · rw [if_neg hid]
    exact ⟨rfl, rfl, fun heq => absurd heq hid, fun _ => rfl⟩

/-- A bubble after a status is shown on the label of the entry found. -/
theorem mem_updateStatus {bubbles : ChatBubbles} {seq : UInt32} {status : ℤ} {entry : TrackedMsg}
    {label : ℕ} (hfind : findTracked seq bubbles.trackedMsgs = some entry)
    (hlabel : entry.statusLabel = some label) {b' : Bubble}
    (h : b' ∈ (bubbles.chatBubbleUpdateStatus seq status).children) :
    ∃ b ∈ bubbles.children, b'.id = b.id ∧ b'.message = b.message ∧
      (b.id = label → status = msgStatusFailed → b'.mark = some .failed) ∧
      (b.id ≠ label → b' = b) := by
  simp only [ChatBubbles.chatBubbleUpdateStatus, hfind, hlabel] at h
  cases hmark : updatedMark status with
  | none =>
    rw [hmark] at h
    refine ⟨b', h, rfl, rfl, fun _ hfailed => ?_, fun _ => rfl⟩
    rw [hfailed] at hmark
    cases hmark
  | some mark =>
    rw [hmark] at h
    obtain ⟨b, hb, hid, hmessage, hset, hkept⟩ := mem_setMark h
    refine ⟨b, hb, hid, hmessage, fun heq hfailed => ?_, hkept⟩
    rw [hfailed] at hmark
    rw [hset heq, ← Option.some.inj hmark]

/-- The next event is shown on the label that it finds, if it finds one. -/
theorem ScreenInv.updateStatus (h : s.ScreenInv) {event : StatusEvent} {rest : List StatusEvent}
    (hqueue : s.statusEvents = event :: rest) (hspares : s.EventSparesFailed)
    (hs' : s' = { s with
      chat := { s.chat with
        bubbles := s.chat.bubbles.chatBubbleUpdateStatus event.msgSeq event.status }
      statusEvents := rest }) :
    s'.ScreenInv := by
  subst hs'
  have hlabels := ChatBubbles.LabelsInv.updateStatus h.labels event.msgSeq event.status
  obtain ⟨children, trackedMsgs, heq, -, htracked⟩ :=
    s.chat.bubbles.chatBubbleUpdateStatus_cases event.msgSeq event.status
  -- an event for another number stays in the queue
  have hstays : ∀ entry : TrackedMsg, entry.msgSeq ≠ event.msgSeq →
      (⟨entry.msgSeq, msgStatusFailed⟩ : StatusEvent) ∈ s.statusEvents →
        (⟨entry.msgSeq, msgStatusFailed⟩ : StatusEvent) ∈ rest := by
    intro entry hne hevent
    rw [hqueue] at hevent
    exact (List.mem_cons.mp hevent).resolve_left fun hsame =>
      hne (congrArg StatusEvent.msgSeq hsame)
  have hwaits : ∀ entry ∈ s.chat.bubbles.trackedMsgs, entry.msgSeq ≠ event.msgSeq →
      entry ∈ trackedMsgs := by
    intro entry hentry hne
    rcases htracked with rfl | rfl
    · exact hentry
    · exact mem_finishTracked_of_ne hentry hne
  have hapart : NumbersApart trackedMsgs := by
    rcases htracked with rfl | rfl
    · exact h.apart
    · exact h.apart.finish _
  cases hfind : findTracked event.msgSeq s.chat.bubbles.trackedMsgs with
  | none =>
    have hsame : s.chat.bubbles.chatBubbleUpdateStatus event.msgSeq event.status =
        s.chat.bubbles := by
      rw [ChatBubbles.chatBubbleUpdateStatus, hfind]
    rw [hsame]
    refine ⟨h.labels, h.screenless, h.apart, h.drawn_lt, h.drawn_plain, h.queue_lt, h.failed_lt,
      fun b hb message hmessage hhas => ?_⟩
    refine (h.shown b hb message hmessage hhas).imp id ?_
    rintro ⟨hmark, entry, hentry, hactive, hlabel, hevent⟩
    refine ⟨hmark, entry, hentry, hactive, hlabel, hstays entry (fun hseq => ?_) hevent⟩
    refine List.find?_eq_none.mp hfind entry hentry ?_
    rw [hactive, hseq, beq_self_eq_true]
    rfl
  | some found =>
    obtain ⟨hfound, hactive₀, hseq₀⟩ := ChatBubbles.of_findTracked hfind
    obtain ⟨b₀, hb₀, hlabel₀, -, own, hown, -⟩ := h.labels.valid found hfound hactive₀
    have hback : ∀ b' ∈ (s.chat.bubbles.chatBubbleUpdateStatus event.msgSeq event.status).children,
        _ := fun _ => mem_updateStatus hfind hlabel₀
    rw [heq] at hlabels hback ⊢
    refine ⟨hlabels, fun hno => ?_, hapart, h.drawn_lt, ?_, h.queue_lt, h.failed_lt, ?_⟩
    · refine List.eq_nil_iff_forall_not_mem.mpr fun b' hb' => ?_
      obtain ⟨b, hb, -⟩ := hback b' hb'
      rw [h.screenless hno] at hb
      cases hb
    · intro b' hb' label hdrawn
      obtain ⟨b, hb, hid, hmessage, -⟩ := hback b' hb'
      rw [hmessage]
      exact h.drawn_plain b hb label (hid ▸ hdrawn)
    · intro b' hb' message hfailed hhas
      obtain ⟨b, hb, hid, hmessage, hset, hkept⟩ := hback b' hb'
      by_cases hlabel : b.id = b₀.id
      · -- the label found is of a typed message, so the event says that it failed
        obtain rfl := h.labels.unique b hb b₀ hb₀ hlabel
        have hthis : b.message = some message := by
          rcases hhas with hthis | hdrawn
          · exact hmessage.symm.trans hthis
          · rw [hid] at hdrawn
            rw [h.drawn_plain b hb _ hdrawn] at hown
            cases hown
        refine Or.inl (hset rfl ?_)
        by_contra hother
        exact hspares event (by rw [hqueue]; rfl) hother found hfound hactive₀ hseq₀ b hb hlabel₀
          message hthis hfailed
      · rw [hkept hlabel] at hhas ⊢
        refine (h.shown b hb message hfailed hhas).imp id ?_
        rintro ⟨hmark, entry, hentry, hactive, hentryLabel, hevent⟩
        have hne : entry.msgSeq ≠ event.msgSeq := by
          intro hseq
          have hsame := h.apart.eq hentry hfound hactive hactive₀ (hseq.trans hseq₀.symm)
          rw [hsame, hlabel₀] at hentryLabel
          exact hlabel (Option.some.inj hentryLabel).symm
        exact ⟨hmark, entry, hwaits entry hentry hne, hactive, hentryLabel,
          hstays entry hne hevent⟩

/-- A status event makes the label it finds failed, or finds none of a failed message. -/
theorem ScreenInv.handleStatusEvent (h : s.ScreenInv)
    (hop : s.chat.screen = true → s.EventSparesFailed) : s.handleStatusEvent.ScreenInv := by
  unfold MessageTasks.handleStatusEvent
  cases hevents : s.statusEvents with
  | nil => exact h
  | cons event rest =>
    dsimp only
    by_cases hscreen : s.chat.screen = true
    · rw [if_pos hscreen]
      exact h.updateStatus hevents (hop hscreen) rfl
    · have hnone : s.chat.bubbles.children = [] := h.screenless (Bool.not_eq_true _ ▸ hscreen)
      rw [if_neg hscreen]
      refine ⟨h.labels, h.screenless, h.apart, h.drawn_lt, h.drawn_plain, h.queue_lt, h.failed_lt,
        fun b hb => ?_⟩
      rw [hnone] at hb
      cases hb

/-- An event more in the queue. -/
theorem ScreenInv.notifyStatus (h : s.ScreenInv) (msgSeq : UInt32) (status : ℤ) (queued : Bool) :
    (s.notifyStatus msgSeq status queued).ScreenInv := by
  refine ⟨h.labels, h.screenless, h.apart, h.drawn_lt, h.drawn_plain, h.queue_lt, h.failed_lt,
    h.shown.transfer (fun b hb message hmessage hhas => ⟨hb, hmessage, hhas⟩)
      (fun _ hentry _ => hentry) fun event hevent => ?_⟩
  unfold MessageTasks.notifyStatus
  by_cases hqueued : queued = true
  · rw [if_pos hqueued]
    exact List.mem_append_left _ hevent
  · rw [if_neg hqueued]
    exact hevent

/-- A typed message is taken from the queue. -/
theorem ScreenInv.dequeue (h : s.ScreenInv) {typed : KeyboardMsg} {rest : List KeyboardMsg}
    (hqueue : s.kbdQueue = typed :: rest) : ScreenInv { s with kbdQueue := rest } :=
  ⟨h.labels, h.screenless, h.apart, h.drawn_lt, h.drawn_plain,
    fun later hlater => h.queue_lt later (hqueue ▸ List.mem_cons_of_mem _ hlater), h.failed_lt,
    h.shown⟩

/-- A sending fails: the event for the last number is queued, under which the label waits. -/
theorem ScreenInv.fail (h : s.ScreenInv) {message : ℕ} (hlt : message < s.chat.sent.length)
    (hwaits : s.WaitsUnderLast message) :
    ScreenInv { s.notifyStatus s.chat.bubbles.msgSeqCounter msgStatusFailed true with
      failed := s.failed ++ [message] } := by
  have hnotified := h.notifyStatus s.chat.bubbles.msgSeqCounter msgStatusFailed true
  refine ⟨hnotified.labels, hnotified.screenless, hnotified.apart, hnotified.drawn_lt,
    hnotified.drawn_plain, hnotified.queue_lt, fun other hother => ?_,
    fun b hb other hother hhas => ?_⟩
  · rcases List.mem_append.mp hother with hother | hother
    · exact h.failed_lt other hother
    · rw [List.mem_singleton.mp hother]
      exact hlt
  · rcases List.mem_append.mp hother with hother | hother
    · exact hnotified.shown b hb other hother hhas
    · rw [List.mem_singleton.mp hother] at hhas
      obtain ⟨hmark, entry, hentry, hactive, hlabel, hlast⟩ := hwaits b hb hhas
      refine Or.inr ⟨hmark, entry, hentry, hactive, hlabel, ?_⟩
      rw [hlast]
      exact List.mem_append_right _ (List.mem_singleton_self _)

/-- A history is appended to, which the chat does not see. -/
theorem ScreenInv.appendHistory (h : s.ScreenInv) (H : HistoryPrimitives K) (slot : UInt8)
    (msg : HistoryMessage) (faults : AppendFaults) (label : Option ℕ) :
    (s.appendHistory H slot msg faults label).ScreenInv :=
  h.congr rfl rfl rfl rfl rfl

/-- The App Task comes to a typed message; its label waits if the sending fails. -/
theorem ScreenInv.processKeyboard (h : s.ScreenInv) (H : HistoryPrimitives K) {slot : UInt8}
    {outcome : SendOutcome} {timestamp : Int64} {faults : AppendFaults} {queued : Bool}
    (hop : s.ProcessesRight slot outcome timestamp faults queued) :
    (s.processKeyboard H slot outcome timestamp faults queued).ScreenInv := by
  unfold MessageTasks.processKeyboard
  cases hqueue : s.kbdQueue with
  | nil => exact h
  | cons typed rest =>
    obtain ⟨-, -, hactive, -, hfails⟩ := hop typed (by rw [hqueue]; rfl)
    have hlt := h.queue_lt typed (hqueue ▸ List.mem_cons_self)
    have hrest := h.dequeue hqueue
    cases outcome with
    | inactive => exact absurd rfl hactive
    | sent msgId =>
      have hnotified := hrest.notifyStatus s.chat.bubbles.msgSeqCounter msgStatusSent queued
      have hmapped : ScreenInv { MessageTasks.notifyStatus { s with kbdQueue := rest }
          s.chat.bubbles.msgSeqCounter msgStatusSent queued with
          msgMappings := smpRegisterMsgMapping s.chat.bubbles.msgSeqCounter msgId s.msgMappings } :=
        hnotified.congr rfl rfl rfl rfl rfl
      exact hmapped.appendHistory H slot _ faults _
    | failed =>
      obtain ⟨rfl, hwaits⟩ := hfails rfl
      exact (hrest.fail hlt hwaits).appendHistory H slot _ faults _

/-- The ids of a receipt add events to the queue. -/
theorem ScreenInv.notifyReceipts (h : s.ScreenInv) (queued : ℕ → Bool) (n : ℕ)
    (ids : List UInt64) : (MessageTasks.notifyReceipts queued n ids s).ScreenInv := by
  induction ids generalizing s n with
  | nil => exact h
  | cons msgId rest ih =>
    have hmapped : ScreenInv { s with msgMappings := (findSeqByMsgId msgId s.msgMappings).2 } :=
      h.congr rfl rfl rfl rfl rfl
    rw [MessageTasks.notifyReceipts]
    by_cases hfound : (findSeqByMsgId msgId s.msgMappings).1 > 0
    · rw [if_pos hfound]
      exact ih (hmapped.notifyStatus _ _ _) (n + 1)
    · rw [if_neg hfound]
      exact ih hmapped (n + 1)

end MessageTasks

end SimpleGo
