import SimpleGo.Ui.Chat

/-!
# The status labels that wait for an update

Whether the active entries of `tracked_msgs` point to status labels that still exist and
belong to the message with the entry's number. A bubble can be deleted while its label waits:
only a final status, and the destruction of the screen, take an entry out of the table. The
numbers start again with every screen, so a late status can also find another message's entry.
-/

namespace SimpleGo

open Lib

namespace ChatBubbles

/-! ### The table and the bubbles -/

/-- The active entries point to labels of bubbles that exist, created for the message with the
entry's number; `sent` has the numbers of the messages. -/
def LabelsValid (s : ChatBubbles) (sent : List UInt32) : Prop :=
  ∀ entry ∈ s.trackedMsgs, entry.active = true →
    ∃ b ∈ s.children, entry.statusLabel = some b.id ∧ b.mark.isSome = true ∧
      ∃ message ∈ b.message, sent[message]? = some entry.msgSeq

instance (s : ChatBubbles) (sent : List UInt32) : Decidable (s.LabelsValid sent) :=
  inferInstanceAs (Decidable (∀ _ ∈ _, _))

/-- No active entry points to the label of the bubble. -/
def Untracked (s : ChatBubbles) (b : Bubble) : Prop :=
  ∀ entry ∈ s.trackedMsgs, entry.active = true → entry.statusLabel ≠ some b.id

instance (s : ChatBubbles) : DecidablePred s.Untracked := fun _ =>
  inferInstanceAs (Decidable (∀ _ ∈ _, _))

/-- What holds between the operations: an entry is for the last message with its number. -/
structure LabelsInv (s : ChatBubbles) (sent : List UInt32) : Prop where
  valid : s.LabelsValid sent
  unique : ∀ b ∈ s.children, ∀ b' ∈ s.children, b.id = b'.id → b = b'
  fresh : ∀ b ∈ s.children, b.id < s.created
  latest : ∀ entry ∈ s.trackedMsgs, entry.active = true → ∀ b ∈ s.children,
    entry.statusLabel = some b.id → ∀ message ∈ b.message, ∀ later > message,
      sent[later]? ≠ some entry.msgSeq

/-- Tracking a label changes one entry at most. -/
theorem mem_trackLabel {label : ℕ} {seq : UInt32} {entries : List TrackedMsg} {entry : TrackedMsg}
    (h : entry ∈ trackLabel label seq entries) :
    entry ∈ entries ∨ entry = ⟨some label, seq, true⟩ := by
  induction entries with
  | nil => exact absurd h List.not_mem_nil
  | cons first rest ih =>
    rw [trackLabel] at h
    by_cases hactive : first.active = true
    · rw [if_pos hactive] at h
      rcases List.mem_cons.mp h with rfl | h
      · exact Or.inl List.mem_cons_self
      · exact (ih h).imp (List.mem_cons_of_mem _) id
    · rw [if_neg hactive] at h
      rcases List.mem_cons.mp h with rfl | h
      · exact Or.inr rfl
      · exact Or.inl (List.mem_cons_of_mem _ h)

/-- A full table stays as it is. -/
theorem trackLabel_of_full {label : ℕ} {seq : UInt32} {entries : List TrackedMsg}
    (h : ∀ entry ∈ entries, entry.active = true) : trackLabel label seq entries = entries := by
  induction entries with
  | nil => rfl
  | cons first rest ih =>
    rw [trackLabel, if_pos (h first List.mem_cons_self),
      ih fun entry hentry => h entry (List.mem_cons_of_mem _ hentry)]

/-- The entry found is active and has the number. -/
theorem of_findTracked {seq : UInt32} {entries : List TrackedMsg} {entry : TrackedMsg}
    (h : findTracked seq entries = some entry) :
    entry ∈ entries ∧ entry.active = true ∧ entry.msgSeq = seq := by
  have hfound := List.find?_some h
  rw [Bool.and_eq_true, beq_iff_eq] at hfound
  exact ⟨List.mem_of_find?_eq_some h, hfound⟩

/-- The end of a tracking adds no active entry. -/
theorem mem_finishTracked {seq : UInt32} {entries : List TrackedMsg} {entry : TrackedMsg}
    (h : entry ∈ finishTracked seq entries) (hactive : entry.active = true) : entry ∈ entries := by
  induction entries with
  | nil => exact absurd h List.not_mem_nil
  | cons first rest ih =>
    rw [finishTracked] at h
    by_cases hfirst : (first.active && first.msgSeq == seq) = true
    · rw [if_pos hfirst] at h
      rcases List.mem_cons.mp h with rfl | h
      · cases hactive
      · exact List.mem_cons_of_mem _ h
    · rw [if_neg hfirst] at h
      rcases List.mem_cons.mp h with rfl | h
      · exact List.mem_cons_self
      · exact List.mem_cons_of_mem _ (ih h)

namespace LabelsInv

variable {s : ChatBubbles} {sent : List UInt32}

/-- Before any message there is no entry. -/
theorem blank (created : ℕ) (sent : List UInt32) : (ChatBubbles.blank created).LabelsInv sent := by
  have hidle : ∀ entry ∈ (ChatBubbles.blank created).trackedMsgs, entry.active ≠ true := by
    intro entry hentry
    rw [List.eq_of_mem_replicate hentry]
    exact nofun
  refine ⟨?_, nofun, nofun, ?_⟩
  · exact fun entry hentry hactive => absurd hactive (hidle entry hentry)
  · exact fun entry hentry hactive => absurd hactive (hidle entry hentry)

/-- Bubbles are deleted whose labels do not wait. -/
theorem delete (h : s.LabelsInv sent) {children : List Bubble} {count : ℕ}
    (hsub : ∀ b ∈ children, b ∈ s.children)
    (hgone : ∀ b ∈ s.children, b ∉ children → s.Untracked b) :
    { s with children := children, bubbleCount := count }.LabelsInv sent where
  valid := by
    intro entry hentry hactive
    obtain ⟨b, hb, hlabel, hmessage⟩ := h.valid entry hentry hactive
    refine ⟨b, ?_, hlabel, hmessage⟩
    by_contra hno
    exact hgone b hb hno entry hentry hactive hlabel
  unique := fun b hb b' hb' => h.unique b (hsub b hb) b' (hsub b' hb')
  fresh := fun b hb => h.fresh b (hsub b hb)
  latest := fun entry hentry hactive b hb => h.latest entry hentry hactive b (hsub b hb)

/-- All bubbles are deleted. -/
theorem clean (h : s.LabelsInv sent) (hgone : ∀ b ∈ s.children, s.Untracked b) :
    s.clean.LabelsInv sent :=
  h.delete (fun _ hb => absurd hb List.not_mem_nil) fun b hb _ => hgone b hb

/-- The oldest bubbles of a contact are deleted. -/
theorem removeOldest (h : s.LabelsInv sent) {count : ℤ} {contactIdx : Option ℕ}
    (hgone : ∀ b ∈ (s.children.filter (Bubble.isOf contactIdx)).take count.toNat, s.Untracked b) :
    (s.chatBubbleRemoveOldest count contactIdx).LabelsInv sent := by
  unfold chatBubbleRemoveOldest
  by_cases hcount : count ≤ 0
  · rw [if_pos hcount]
    exact h
  · rw [if_neg hcount]
    refine h.delete (fun b hb => (removeFirst_sublist _ _ _).subset hb) fun b hb hno => ?_
    refine hgone b ?_
    by_contra hfirst
    exact hno (mem_removeFirst hb hfirst)

/-- The newest bubbles of a contact are deleted. -/
theorem removeNewest (h : s.LabelsInv sent) {count : ℤ} {contactIdx : Option ℕ}
    (hgone : ∀ b ∈ (s.children.filter (Bubble.isOf contactIdx)).rtake count.toNat,
      s.Untracked b) :
    (s.chatBubbleRemoveNewest count contactIdx).LabelsInv sent := by
  unfold chatBubbleRemoveNewest
  by_cases hcount : count ≤ 0
  · rw [if_pos hcount]
    exact h
  · rw [if_neg hcount]
    refine h.delete (fun b hb => (removeLast_sublist _ _ _).subset hb) fun b hb hno => ?_
    refine hgone b ?_
    by_contra hlast
    exact hno (mem_removeLast hb hlast)

/-- A new bubble: its label is tracked as the label of the last message, or not tracked. -/
theorem create (h : s.LabelsInv sent) (text : List UInt8) (isOutgoing : Bool)
    (contactIdx : Option ℕ) (deliveryStatus : ℤ) (message : Option ℕ) (room : Bool)
    (htracked : isOutgoing = true → deliveryStatus < 0 → room = true →
      (∀ entry ∈ s.trackedMsgs, entry.active = true) ∨
        ∃ m, message = some m ∧ sent[m]? = some s.msgSeqCounter ∧ sent.length ≤ m + 1) :
    (s.createBubbleInternal text isOutgoing contactIdx deliveryStatus message room).LabelsInv
      sent := by
  unfold createBubbleInternal
  by_cases hroom : room = true
  · rw [if_pos hroom]
    generalize hb₀ : (Bubble.mk s.created contactIdx (displayText text) isOutgoing
      (if isOutgoing then some (statusMark deliveryStatus) else none) message) = b₀
    have hid : b₀.id = s.created := by rw [← hb₀]
    have hmark : isOutgoing = true → b₀.mark.isSome = true := by
      rintro rfl
      rw [← hb₀]
      rfl
    have hmessage : b₀.message = message := by rw [← hb₀]
    -- the entries are the old ones, and perhaps one for the new label
    have hentries : ∀ entry ∈ (if isOutgoing = true ∧ deliveryStatus < 0 then
        trackLabel s.created s.msgSeqCounter s.trackedMsgs else s.trackedMsgs),
        entry ∈ s.trackedMsgs ∨ (entry = ⟨some s.created, s.msgSeqCounter, true⟩ ∧
          isOutgoing = true ∧
          ∃ m, message = some m ∧ sent[m]? = some s.msgSeqCounter ∧ sent.length ≤ m + 1) := by
      intro entry hentry
      by_cases hlive : isOutgoing = true ∧ deliveryStatus < 0
      · rw [if_pos hlive] at hentry
        rcases htracked hlive.1 hlive.2 hroom with hfull | hlast
        · rw [trackLabel_of_full hfull] at hentry
          exact Or.inl hentry
        · exact (mem_trackLabel hentry).imp id fun hnew => ⟨hnew, hlive.1, hlast⟩
      · rw [if_neg hlive] at hentry
        exact Or.inl hentry
    -- no old entry points to the new label
    have hold : ∀ entry ∈ s.trackedMsgs, entry.active = true →
        entry.statusLabel ≠ some b₀.id := by
      intro entry hentry hactive hlabel
      obtain ⟨b, hb, hlabel', -⟩ := h.valid entry hentry hactive
      have hlt := h.fresh b hb
      rw [hlabel'] at hlabel
      rw [← Option.some.inj hlabel.symm, hid] at hlt
      exact Nat.lt_irrefl _ hlt
    refine ⟨?_, ?_, ?_, ?_⟩
    · intro entry hentry hactive
      rcases hentries entry hentry with hentry | ⟨rfl, hsent, m, hm, hseq, -⟩
      · obtain ⟨b, hb, hrest⟩ := h.valid entry hentry hactive
        exact ⟨b, List.mem_append_left _ hb, hrest⟩
      · exact ⟨b₀, List.mem_append_right _ (List.mem_singleton_self _), by rw [hid], hmark hsent,
          m, hmessage.trans hm, hseq⟩
    · intro b hb b' hb' heq
      rcases List.mem_append.mp hb with hb | hb <;> rcases List.mem_append.mp hb' with hb' | hb'
      · exact h.unique b hb b' hb' heq
      · rw [List.mem_singleton.mp hb', hid] at heq
        exact absurd (heq ▸ h.fresh b hb) (Nat.lt_irrefl _)
      · rw [List.mem_singleton.mp hb, hid] at heq
        exact absurd (heq ▸ h.fresh b' hb') (Nat.lt_irrefl _)
      · rw [List.mem_singleton.mp hb, List.mem_singleton.mp hb']
    · intro b hb
      rcases List.mem_append.mp hb with hb | hb
      · exact Nat.lt_succ_of_lt (h.fresh b hb)
      · rw [List.mem_singleton.mp hb, hid]
        exact Nat.lt_succ_self _
    · intro entry hentry hactive b hb hlabel
      rcases hentries entry hentry with hentry | ⟨rfl, -, m, hm, hseq, hlast⟩
      · rcases List.mem_append.mp hb with hb | hb
        · exact h.latest entry hentry hactive b hb hlabel
        · rw [List.mem_singleton.mp hb] at hlabel
          exact absurd hlabel (hold entry hentry hactive)
      · rcases List.mem_append.mp hb with hb | hb
        · have hlt := h.fresh b hb
          rw [← Option.some.inj hlabel] at hlt
          exact absurd hlt (Nat.lt_irrefl _)
        · rw [List.mem_singleton.mp hb, hmessage, hm]
          intro message' hmessage' later hlater
          rw [List.getElem?_eq_none (by have := Option.some.inj hmessage'; omega)]
          exact nofun
  · rw [if_neg hroom]
    exact h

/-- The order of the bubbles does not matter. -/
theorem lastToFront (h : s.LabelsInv sent) : s.lastToFront.LabelsInv sent := by
  have hmem : ∀ b, b ∈ s.lastToFront.children ↔ b ∈ s.children := by
    intro b
    rw [ChatBubbles.lastToFront]
    rcases List.eq_nil_or_concat s.children with hnil | ⟨rest, last, hlast⟩
    · rw [hnil]
      rfl
    · rw [hlast, List.concat_eq_append, List.getLast?_concat, List.dropLast_concat,
        List.mem_append, List.mem_append, or_comm]
      rfl
  refine ⟨?_, ?_, ?_, ?_⟩
  · intro entry hentry hactive
    obtain ⟨b, hb, hrest⟩ := h.valid entry hentry hactive
    exact ⟨b, (hmem b).mpr hb, hrest⟩
  · exact fun b hb b' hb' => h.unique b ((hmem b).mp hb) b' ((hmem b').mp hb')
  · exact fun b hb => h.fresh b ((hmem b).mp hb)
  · exact fun entry hentry hactive b hb => h.latest entry hentry hactive b ((hmem b).mp hb)

/-- An update changes the text of labels and ends trackings. -/
theorem updateStatus (h : s.LabelsInv sent) (msgSeq : UInt32) (status : ℤ) :
    (s.chatBubbleUpdateStatus msgSeq status).LabelsInv sent := by
  obtain ⟨children, trackedMsgs, heq, hchildren, htracked⟩ :=
    s.chatBubbleUpdateStatus_cases msgSeq status
  -- the bubbles keep their identities and messages
  have hfwd : ∀ b ∈ s.children, ∃ b' ∈ children, b'.id = b.id ∧ b'.message = b.message ∧
      (b.mark.isSome = true → b'.mark.isSome = true) := by
    intro b hb
    rcases hchildren with rfl | ⟨label, mark, -, -, rfl⟩
    · exact ⟨b, hb, rfl, rfl, id⟩
    · refine ⟨_, List.mem_map_of_mem hb, ?_⟩
      by_cases hlabel : b.id = label
      · rw [if_pos hlabel]
        exact ⟨rfl, rfl, fun _ => rfl⟩
      · rw [if_neg hlabel]
        exact ⟨rfl, rfl, id⟩
  have hback : ∀ b' ∈ children, ∃ b ∈ s.children, b'.id = b.id ∧ b'.message = b.message ∧
      ∀ b'' ∈ children, b''.id = b'.id → b'' = b' := by
    intro b' hb'
    rcases hchildren with rfl | ⟨label, mark, -, -, rfl⟩
    · exact ⟨b', hb', rfl, rfl, fun b'' hb'' hid => h.unique b'' hb'' b' hb' hid⟩
    · have hsame : ∀ b : Bubble,
          (if b.id = label then { b with mark := some mark } else b).id = b.id ∧
            (if b.id = label then { b with mark := some mark } else b).message = b.message := by
        intro b
        by_cases hlabel : b.id = label
        · rw [if_pos hlabel]
          exact ⟨rfl, rfl⟩
        · rw [if_neg hlabel]
          exact ⟨rfl, rfl⟩
      obtain ⟨b, hb, rfl⟩ := List.mem_map.mp hb'
      refine ⟨b, hb, (hsame b).1, (hsame b).2, fun b'' hb'' hid => ?_⟩
      obtain ⟨c, hc, rfl⟩ := List.mem_map.mp hb''
      rw [(hsame c).1, (hsame b).1] at hid
      rw [h.unique c hc b hb hid]
  have hentries : ∀ entry ∈ trackedMsgs, entry.active = true → entry ∈ s.trackedMsgs := by
    intro entry hentry hactive
    rcases htracked with rfl | rfl
    · exact hentry
    · exact mem_finishTracked hentry hactive
  rw [heq]
  refine ⟨?_, ?_, ?_, ?_⟩
  · intro entry hentry hactive
    obtain ⟨b, hb, hlabel, hmark, message, hmessage, hseq⟩ :=
      h.valid entry (hentries entry hentry hactive) hactive
    obtain ⟨b', hb', hid, hsame, hmark'⟩ := hfwd b hb
    exact ⟨b', hb', by rw [hlabel, hid], hmark' hmark, message, hsame ▸ hmessage, hseq⟩
  · intro b hb b' hb' hid
    obtain ⟨-, -, -, -, hunique⟩ := hback b' hb'
    exact hunique b hb hid
  · intro b hb
    obtain ⟨c, hc, hid, -⟩ := hback b hb
    rw [hid]
    exact h.fresh c hc
  · intro entry hentry hactive b hb hlabel
    obtain ⟨c, hc, hid, hmessage, -⟩ := hback b hb
    rw [hmessage]
    rw [hid] at hlabel
    exact h.latest entry (hentries entry hentry hactive) hactive c hc hlabel

/-- A message is sent: its number is that of no active entry. -/
theorem send (h : s.LabelsInv sent) {seq : UInt32}
    (hnew : ∀ entry ∈ s.trackedMsgs, entry.active = true → entry.msgSeq ≠ seq) :
    { s with msgSeqCounter := seq }.LabelsInv (sent ++ [seq]) where
  valid := by
    intro entry hentry hactive
    obtain ⟨b, hb, hlabel, hmark, message, hmessage, hseq⟩ := h.valid entry hentry hactive
    refine ⟨b, hb, hlabel, hmark, message, hmessage, ?_⟩
    rw [List.getElem?_append_left (List.getElem?_eq_some_iff.mp hseq).1, hseq]
  unique := h.unique
  fresh := h.fresh
  latest := by
    intro entry hentry hactive b hb hlabel message hmessage later hlater hsame
    rcases Nat.lt_trichotomy later sent.length with hlt | rfl | hgt
    · rw [List.getElem?_append_left hlt] at hsame
      exact h.latest entry hentry hactive b hb hlabel message hmessage later hlater hsame
    · rw [List.getElem?_concat_length] at hsame
      exact hnew entry hentry hactive (Option.some.inj hsame).symm
    · rw [List.getElem?_eq_none (by rw [List.length_append, List.length_singleton]; omega)] at hsame
      cases hsame

/-- A bubble from the history is not tracked. -/
theorem addHistory (h : s.LabelsInv sent) (text : List UInt8) (isOutgoing : Bool)
    (contactIdx : Option ℕ) (deliveryStatus : UInt8) (room : Bool) :
    (s.chatBubbleAddHistory text isOutgoing contactIdx deliveryStatus room).LabelsInv sent :=
  h.create text isOutgoing contactIdx deliveryStatus.toNat none room
    fun _ hneg => absurd hneg (Int.not_lt.mpr (Int.natCast_nonneg _))

end LabelsInv

end ChatBubbles

namespace Chat

variable (s : Chat)

/-- The labels that wait in the table are valid. -/
def LabelsValid : Prop := s.bubbles.LabelsValid s.sent

instance : Decidable s.LabelsValid := inferInstanceAs (Decidable (s.bubbles.LabelsValid s.sent))

/-- What holds of the labels between the operations. -/
def LabelsInv : Prop := s.bubbles.LabelsInv s.sent

/-- The bubbles that `ui_chat_add_message` evicts before a message of the active contact. -/
def evicted : List Bubble :=
  if bubbleWindowSize ≤ s.bubbles.bubbleCount then
    (s.bubbles.children.filter (Bubble.isOf (some s.activeContact))).take 1
  else []

/-- The bubbles that `load_older_messages` removes at the bottom. -/
def removedNewest : List Bubble :=
  (s.bubbles.children.filter (Bubble.isOf s.cacheSlot)).rtake
    (s.windowEnd - s.windowStart + s.olderCount - bubbleWindowSize).toNat

/-- The bubbles that `load_newer_messages` removes at the top. -/
def removedOldest : List Bubble :=
  (s.bubbles.children.filter (Bubble.isOf s.cacheSlot)).take
    (s.windowEnd - s.windowStart + s.newerCount - bubbleWindowSize).toNat

end Chat

/-- The bubbles that an operation on the screen deletes, without those that go with the screen
and with the table. -/
def ChatOp.deletes (s : Chat) : ChatOp → List Bubble
  | .create | .cleanup | .renderTick _ | .updateStatus _ _ => []
  | .switchContact _ => s.bubbles.children
  | .clearContact none => s.bubbles.children
  | .clearContact (some contactIdx) => s.bubbles.children.filter (Bubble.isOf (some contactIdx))
  | .historyBatch loaded _ _ _ => if loaded = [] then [] else s.bubbles.children
  | .scroll nearTop nearBottom _ =>
    if s.scrollsOlder nearTop then s.removedNewest
    else if s.scrollsNewer nearTop nearBottom then s.removedOldest else []
  | .addMessage _ _ contactIdx _ => if contactIdx = s.activeContact then s.evicted else []
  | .sendMessage text _ => if text = [] then [] else s.evicted

/-- The numbers are not mixed up: an outgoing message that the user has not typed is not
tracked, a new number is not that of a label that waits, and a status does not find the label
of a later message. -/
def ChatOp.KeepsNumbers (s : Chat) : ChatOp → Prop
  | .addMessage _ isOutgoing _ room =>
    isOutgoing = true ∧ room = true → ∀ entry ∈ s.bubbles.trackedMsgs, entry.active = true
  | .sendMessage text _ =>
    text ≠ [] → ∀ entry ∈ s.bubbles.trackedMsgs, entry.active = true →
      entry.msgSeq ≠ s.bubbles.msgSeqCounter + 1
  | .updateStatus message _ =>
    ∀ entry ∈ s.bubbles.trackedMsgs, entry.active = true →
      s.sent[message]? = some entry.msgSeq → ∀ b ∈ s.bubbles.children,
        entry.statusLabel = some b.id → ∀ own ∈ b.message, own ≤ message
  | _ => True

/-- No label is deleted while it waits for an update, and the numbers are not mixed up. -/
def ChatOp.KeepsLabels (s : Chat) (op : ChatOp) : Prop :=
  s.screen = true → (∀ b ∈ op.deletes s, s.bubbles.Untracked b) ∧ op.KeepsNumbers s

instance (s : Chat) : (op : ChatOp) → Decidable (op.KeepsNumbers s)
  | .addMessage _ _ _ _ => inferInstanceAs (Decidable (_ → _))
  | .sendMessage _ _ => inferInstanceAs (Decidable (_ → _))
  | .updateStatus _ _ => inferInstanceAs (Decidable (∀ _ ∈ _, _))
  | .create | .cleanup | .switchContact _ | .clearContact _ | .historyBatch _ _ _ _
  | .renderTick _ | .scroll _ _ _ => isTrue trivial

instance (s : Chat) (op : ChatOp) : Decidable (op.KeepsLabels s) :=
  inferInstanceAs (Decidable (_ → _))

/-- The label that an update of the screen touches is that of a bubble that exists, and all
such bubbles are the message's own. -/
def ChatOp.MarksOwn (s : Chat) : ChatOp → Prop
  | .updateStatus message _ =>
    s.screen = true → ∀ label ∈ s.sent[message]?.bind s.bubbles.touchedLabel,
      (∃ b ∈ s.bubbles.children, b.id = label) ∧
        ∀ b ∈ s.bubbles.children, b.id = label → b.message = some message
  | _ => True

instance (s : Chat) : (op : ChatOp) → Decidable (op.MarksOwn s)
  | .updateStatus _ _ => inferInstanceAs (Decidable (_ → _))
  | .create | .cleanup | .switchContact _ | .clearContact _ | .historyBatch _ _ _ _
  | .renderTick _ | .scroll _ _ _ | .addMessage _ _ _ _ | .sendMessage _ _ => isTrue trivial

namespace Chat

variable {s : Chat}

/-! ### Rendering and scrolling -/

/-- A message of the history is not tracked. -/
theorem LabelsInv.addHistoryMessage (h : s.LabelsInv) (m : CachedMessage) (room : Bool) :
    (s.uiChatAddHistoryMessage m room).LabelsInv := by
  unfold uiChatAddHistoryMessage
  by_cases hscreen : s.screen = true
  · rw [if_pos hscreen]
    exact ChatBubbles.LabelsInv.addHistory h m.text m.isSent s.histBatchSlot m.deliveryStatus room
  · rw [if_neg hscreen]
    exact h

/-- Messages rendered from the batch are not tracked. -/
theorem LabelsInv.renderBatch (h : s.LabelsInv) (rooms : ℤ → Bool) (n : ℕ) (i : ℤ) :
    (s.renderBatch rooms n i).LabelsInv := by
  induction n generalizing i s with
  | zero => exact h
  | succ n ih =>
    rw [Chat.renderBatch]
    cases s.histBatch[i.toNat]? with
    | none => exact ih h (i + 1)
    | some m => exact ih (h.addHistoryMessage m (rooms i)) (i + 1)

/-- Neither are those of any chunk. -/
theorem LabelsInv.renderTick (h : s.LabelsInv) (rooms : ℤ → Bool) :
    (s.renderTick rooms).LabelsInv := by
  unfold Chat.renderTick
  by_cases hrendering : s.histRendering = true ∧ s.histBatch ≠ []
  · rw [if_pos hrendering]
    dsimp only
    generalize min (s.histRenderIdx + historyChunkSize) s.histRenderEnd = stop
    have hbatch := h.renderBatch rooms (stop - s.histRenderIdx).toNat s.histRenderIdx
    split_ifs
    · exact hbatch
    · exact hbatch
  · rw [if_neg hrendering]
    exact h

/-- A message rendered from the cache is not tracked. -/
theorem LabelsInv.renderCacheBubble (h : s.LabelsInv) (rooms : ℤ → Bool) (i : ℤ) (atTop : Bool) :
    (s.renderCacheBubble rooms i atTop).LabelsInv := by
  unfold Chat.renderCacheBubble
  by_cases hskip : i < 0 ∨ s.cacheCount ≤ i ∨ s.screen = false
  · rw [if_pos hskip]
    exact h
  · rw [if_neg hskip]
    cases s.cache[i.toNat]? with
    | none => exact h
    | some m =>
      have hadd := ChatBubbles.LabelsInv.addHistory h m.text m.isSent s.cacheSlot m.deliveryStatus
        (rooms i)
      cases atTop with
      | false => exact hadd
      | true => exact hadd.lastToFront

/-- Older messages are not tracked. -/
theorem LabelsInv.renderOlder (h : s.LabelsInv) (rooms : ℤ → Bool) (n : ℕ) (i : ℤ) :
    (s.renderOlder rooms n i).LabelsInv := by
  induction n generalizing i s with
  | zero => exact h
  | succ n ih => exact ih (h.renderCacheBubble rooms i true) (i - 1)

/-- Newer messages are not tracked. -/
theorem LabelsInv.renderNewer (h : s.LabelsInv) (rooms : ℤ → Bool) (toAdd : ℤ) (steps : ℕ)
    (i : ℤ) : (s.renderNewer rooms toAdd steps i).LabelsInv := by
  induction steps generalizing i s with
  | zero => exact h
  | succ steps ih =>
    rw [Chat.renderNewer]
    by_cases hi : i < s.windowEnd + toAdd
    · rw [if_pos hi]
      exact ih (h.renderCacheBubble rooms i false) (i + 1)
    · rw [if_neg hi]
      exact h

/-- Older messages take the place of bubbles whose labels do not wait. -/
theorem LabelsInv.loadOlder (h : s.LabelsInv) (rooms : ℤ → Bool)
    (hgone : ∀ b ∈ s.removedNewest, s.bubbles.Untracked b) :
    (s.loadOlderMessages rooms).LabelsInv := by
  unfold loadOlderMessages
  by_cases hstart : s.windowStart ≤ 0
  · rw [if_pos hstart]
    exact h
  · rw [if_neg hstart]
    dsimp only
    have hremoved := ChatBubbles.LabelsInv.removeNewest h hgone
    generalize s.bubbles.chatBubbleRemoveNewest
      (s.windowEnd - s.windowStart + s.olderCount - bubbleWindowSize) s.cacheSlot = bubbles
      at hremoved ⊢
    have hbubbles : LabelsInv { s with
        bubbles := bubbles
        windowEnd := s.windowEnd - s.bubbles.removed bubbles } := hremoved
    exact hbubbles.renderOlder rooms s.olderCount.toNat (s.windowStart - 1)

/-- Newer messages take the place of bubbles whose labels do not wait. -/
theorem LabelsInv.loadNewer (h : s.LabelsInv) (rooms : ℤ → Bool)
    (hgone : ∀ b ∈ s.removedOldest, s.bubbles.Untracked b) :
    (s.loadNewerMessages rooms).LabelsInv := by
  unfold loadNewerMessages
  by_cases hend : s.cacheCount ≤ s.windowEnd
  · rw [if_pos hend]
    exact h
  · rw [if_neg hend]
    dsimp only
    have hremoved := ChatBubbles.LabelsInv.removeOldest h hgone
    generalize s.bubbles.chatBubbleRemoveOldest
      (s.windowEnd - s.windowStart + s.newerCount - bubbleWindowSize) s.cacheSlot = bubbles
      at hremoved ⊢
    have hbubbles : LabelsInv { s with
        bubbles := bubbles
        windowStart := s.windowStart + s.bubbles.removed bubbles } := hremoved
    exact hbubbles.renderNewer rooms s.newerCount _ s.windowEnd

/-- A scroll event deletes only bubbles whose labels do not wait. -/
theorem LabelsInv.scroll (h : s.LabelsInv) {nearTop nearBottom : Bool} (rooms : ℤ → Bool)
    (hgone : ∀ b ∈ (ChatOp.scroll nearTop nearBottom rooms).deletes s, s.bubbles.Untracked b) :
    (s.onScrollCb nearTop nearBottom rooms).LabelsInv := by
  unfold onScrollCb
  rw [ChatOp.deletes] at hgone
  by_cases holder : s.scrollsOlder nearTop = true
  · rw [if_pos holder] at hgone ⊢
    have hbusy : LabelsInv { s with loadingOlder := true, windowBusy := true } := h
    exact hbusy.loadOlder rooms hgone
  · rw [if_neg holder] at hgone ⊢
    by_cases hnewer : s.scrollsNewer nearTop nearBottom = true
    · rw [if_pos hnewer] at hgone ⊢
      have hbusy : LabelsInv { s with loadingNewer := true, windowBusy := true } := h
      exact hbusy.loadNewer rooms hgone
    · rw [if_neg hnewer]
      exact h

/-! ### Live messages -/

/-- The evicted bubble's label does not wait. -/
theorem LabelsInv.evict (h : s.LabelsInv) (hgone : ∀ b ∈ s.evicted, s.bubbles.Untracked b) :
    s.evict.LabelsInv ∧ s.evict.sent = s.sent ∧ s.evict.activeContact = s.activeContact ∧
      s.evict.bubbles.trackedMsgs = s.bubbles.trackedMsgs ∧
      s.evict.bubbles.msgSeqCounter = s.bubbles.msgSeqCounter := by
  unfold Chat.evict
  unfold evicted at hgone
  by_cases hfull : bubbleWindowSize ≤ s.bubbles.bubbleCount
  · rw [if_pos hfull] at hgone ⊢
    have hremoved : (s.bubbles.chatBubbleRemoveOldest 1 (some s.activeContact)).LabelsInv s.sent :=
      ChatBubbles.LabelsInv.removeOldest h hgone
    exact ⟨hremoved, rfl, rfl, rfl, rfl⟩
  · rw [if_neg hfull]
    exact ⟨h, rfl, rfl, rfl, rfl⟩

/-- The cache has nothing to do with the labels. -/
theorem LabelsInv.cacheLive (h : s.LabelsInv) (text : List UInt8) (isOutgoing : Bool)
    (contactIdx : ℕ) : (s.cacheLive text isOutgoing contactIdx).LabelsInv := by
  unfold Chat.cacheLive
  by_cases hcached : s.cacheAllocated = true ∧ s.cacheSlot = some contactIdx ∧
      s.cache.length < msgCacheSize
  · rw [if_pos hcached]
    exact h
  · rw [if_neg hcached]
    exact h

/-- A live message is tracked under the last number, or not at all. -/
theorem LabelsInv.addMessage (h : s.LabelsInv) (text : List UInt8) {isOutgoing : Bool}
    {contactIdx : ℕ} {message : Option ℕ} {room : Bool} (hscreen : s.screen = true)
    (hgone : contactIdx = s.activeContact → ∀ b ∈ s.evicted, s.bubbles.Untracked b)
    (htracked : isOutgoing = true → room = true →
      (∀ entry ∈ s.bubbles.trackedMsgs, entry.active = true) ∨
        ∃ m, message = some m ∧ s.sent[m]? = some s.bubbles.msgSeqCounter ∧
          s.sent.length ≤ m + 1) :
    (s.uiChatAddMessage text isOutgoing contactIdx message room).LabelsInv := by
  unfold uiChatAddMessage
  rw [if_pos hscreen]
  by_cases hactive : contactIdx = s.activeContact
  · obtain ⟨hinv, hsent, -, hentries, hcounter⟩ := h.evict (hgone hactive)
    rw [if_pos hactive]
    refine LabelsInv.cacheLive ?_ text isOutgoing contactIdx
    refine ChatBubbles.LabelsInv.create hinv text isOutgoing _ _ message room fun hout _ hroom => ?_
    rw [hentries, hsent, hcounter]
    exact htracked hout hroom
  · rw [if_neg hactive]
    refine LabelsInv.cacheLive ?_ text isOutgoing contactIdx
    exact ChatBubbles.LabelsInv.create h text isOutgoing _ _ message room
      fun hout _ hroom => htracked hout hroom

/-- The user's message is tracked under its own number. -/
theorem LabelsInv.sendMessage (h : s.LabelsInv) {text : List UInt8} {room : Bool}
    (hop : (ChatOp.sendMessage text room).KeepsLabels s) :
    (s.doSendMessage text room).LabelsInv := by
  unfold doSendMessage
  by_cases hskip : s.screen = false ∨ text = []
  · rw [if_pos hskip]
    exact h
  · rw [if_neg hskip]
    rw [not_or, Bool.not_eq_false] at hskip
    obtain ⟨hgone, hnumbers⟩ := hop hskip.1
    rw [ChatOp.deletes, if_neg hskip.2] at hgone
    have hsend : LabelsInv { s with
        bubbles := s.bubbles.chatBubbleNextSeq
        sent := s.sent ++ [s.bubbles.chatBubbleNextSeq.msgSeqCounter] } :=
      ChatBubbles.LabelsInv.send h (hnumbers hskip.2)
    refine hsend.addMessage text hskip.1 (fun _ => hgone) fun _ _ => Or.inr ⟨_, rfl, ?_, ?_⟩
    · exact List.getElem?_concat_length
    · exact Nat.le_of_eq List.length_append

/-! ### Runs -/

/-- An operation that deletes no label that waits and mixes up no numbers keeps the labels. -/
theorem LabelsInv.step (h : s.LabelsInv) {op : ChatOp} (hop : op.KeepsLabels s) :
    (s.step op).LabelsInv := by
  cases op with
  | create => exact h
  | cleanup =>
    simp only [Chat.step, uiChatCleanup]
    by_cases hscreen : s.screen = true
    · rw [if_pos hscreen]
      exact ChatBubbles.LabelsInv.blank s.bubbles.created s.sent
    · rw [if_neg hscreen]
      exact h
  | switchContact contactIdx =>
    simp only [Chat.step, uiChatSwitchContact]
    by_cases hscreen : s.screen = true
    · rw [if_pos hscreen]
      exact ChatBubbles.LabelsInv.clean h (hop hscreen).1
    · rw [if_neg hscreen]
      exact h
  | clearContact contactIdx =>
    simp only [Chat.step, uiChatClearContact]
    by_cases hscreen : s.screen = true
    · have hgone := (hop hscreen).1
      rw [if_pos hscreen]
      cases contactIdx with
      | none => exact ChatBubbles.LabelsInv.clean h hgone
      | some contactIdx =>
        refine ChatBubbles.LabelsInv.delete h (fun b hb => List.mem_of_mem_filter hb)
          fun b hb hno => hgone b (List.mem_filter.mpr ⟨hb, ?_⟩)
        by_contra hother
        exact hno (List.mem_filter.mpr ⟨hb, by rw [Bool.not_eq_true] at hother; rw [hother]; rfl⟩)
    · rw [if_neg hscreen]
      exact h
  | historyBatch loaded slot alloc freeSize =>
    have hcached : ∀ batch, loaded ≠ [] →
        (s.uiChatCacheHistory batch slot alloc freeSize).LabelsInv := by
      intro batch hloaded
      unfold uiChatCacheHistory
      by_cases hscreen : s.screen = false
      · rw [if_pos hscreen]
        exact h
      · have hgone := (hop (Bool.not_eq_false _ ▸ hscreen)).1
        rw [ChatOp.deletes, if_neg hloaded] at hgone
        have hclean := ChatBubbles.LabelsInv.clean h hgone
        rw [if_neg hscreen]
        split_ifs
        · exact hclean
        · exact hclean
    simp only [Chat.step, historyBatchEvent]
    by_cases hempty : loaded.take 20 = []
    · rw [if_pos hempty]
      exact h
    · rw [if_neg hempty]
      refine hcached _ ?_
      rintro rfl
      exact hempty rfl
  | renderTick rooms => exact h.renderTick rooms
  | scroll nearTop nearBottom rooms =>
    by_cases hscreen : s.screen = true
    · exact h.scroll rooms (hop hscreen).1
    · have hno : s.scrollAllowed = false := by
        rw [Bool.not_eq_true] at hscreen
        rw [scrollAllowed, hscreen]
        rfl
      simp only [Chat.step, onScrollCb, scrollsOlder, scrollsNewer, hno]
      exact h
  | addMessage text isOutgoing contactIdx room =>
    by_cases hscreen : s.screen = true
    · obtain ⟨hgone, hnumbers⟩ := hop hscreen
      refine h.addMessage text hscreen (fun hactive => ?_)
        fun hout hroom => Or.inl (hnumbers ⟨hout, hroom⟩)
      rwa [ChatOp.deletes, if_pos hactive] at hgone
    · simp only [Chat.step, uiChatAddMessage, if_neg hscreen]
      exact h
  | sendMessage text room => exact h.sendMessage hop
  | updateStatus message status =>
    simp only [Chat.step, uiChatUpdateStatus]
    cases s.sent[message]? with
    | none => exact h
    | some msgSeq =>
      dsimp only
      by_cases hscreen : s.screen = true
      · rw [if_pos hscreen]
        exact ChatBubbles.LabelsInv.updateStatus h msgSeq status
      · rw [if_neg hscreen]
        exact h

/-- A status then finds the label of its own message, or none. -/
theorem LabelsInv.marksOwn (h : s.LabelsInv) {op : ChatOp} (hop : op.KeepsLabels s) :
    op.MarksOwn s := by
  cases op with
  | updateStatus message status =>
    intro hscreen label htouched
    obtain ⟨-, hnumbers⟩ := hop hscreen
    obtain ⟨msgSeq, hmsgSeq, hlabel⟩ := Option.bind_eq_some_iff.mp htouched
    obtain ⟨entry, hfind, hentry⟩ := Option.bind_eq_some_iff.mp hlabel
    obtain ⟨hmem, hactive, rfl⟩ := ChatBubbles.of_findTracked hfind
    obtain ⟨b, hb, hid, -, own, hown, hseq⟩ := h.valid entry hmem hactive
    have hle := hnumbers entry hmem hactive hmsgSeq b hb hid own hown
    have hsame : own = message := by
      by_contra hne
      exact h.latest entry hmem hactive b hb hid own hown message
        (Nat.lt_of_le_of_ne hle hne) hmsgSeq
    have hlabel' : b.id = label := Option.some.inj (hid.symm.trans hentry)
    refine ⟨⟨b, hb, hlabel'⟩, fun b' hb' hid' => ?_⟩
    rw [h.unique b' hb' b hb (hid'.trans hlabel'.symm), hown, hsame]
  | create | cleanup | switchContact | clearContact | historyBatch | renderTick | scroll
  | addMessage | sendMessage => trivial

/-- Before the chat screen is created no label waits. -/
theorem labelsInv_boot : boot.LabelsInv := ChatBubbles.LabelsInv.blank 0 []

end Chat

/-- Whatever is done to the chat screen, as long as no label is deleted while it waits and the
numbers are not mixed up, the labels that wait are valid, and each status marks the label of
its own message. -/
theorem chat_labels_valid {ops : List ChatOp}
    (hops : StepsMeet Chat.step (fun s op => op.KeepsLabels s) .boot ops) :
    (runFrom Chat.step .boot ops).LabelsValid ∧
      StepsMeet Chat.step (fun s op => op.MarksOwn s) .boot ops :=
  ⟨(hops.invariant (fun _ _ hinv hop => Chat.LabelsInv.step hinv hop) Chat.labelsInv_boot).valid,
    hops.invariant_step (fun _ _ hinv hop => Chat.LabelsInv.step hinv hop)
      (fun _ _ hinv hop => Chat.LabelsInv.marksOwn hinv hop) Chat.labelsInv_boot⟩

/-- Six messages are sent, the second bubble is refused, and all are delivered but the last;
the chat is left and entered again. -/
def deliveredRun : List ChatOp :=
  [.create, .sendMessage [0x68] true, .sendMessage [0x69] false, .updateStatus 0 1,
    .updateStatus 0 2, .sendMessage [0x6A] true, .sendMessage [0x6B] true, .updateStatus 1 1,
    .updateStatus 2 3, .updateStatus 3 2, .sendMessage [0x6C] true, .sendMessage [0x6D] true,
    .updateStatus 4 2, .cleanup, .create, .sendMessage [0x6E] true, .updateStatus 6 2]

/-- The labels are valid after it, and each mark was its own bubble's. -/
theorem chat_labels_valid_delivered :
    (runFrom Chat.step .boot deliveredRun).LabelsValid ∧
      StepsMeet Chat.step (fun s op => op.MarksOwn s) .boot deliveredRun :=
  chat_labels_valid (by decide)

/-- Six messages are sent in a row. -/
def sendingRun : List ChatOp := .create :: List.replicate 6 (.sendMessage [0x68] true)

/-- The sixth evicts the bubble of the first, whose label still waits, and the status of the
first then goes to the deleted label. When the screen is built again after one message, its
late status marks the next message, which has the same number. -/
theorem chat_labels_evicted :
    ¬ (runFrom Chat.step .boot sendingRun).LabelsValid ∧
      ¬ StepsMeet Chat.step (fun s op => op.MarksOwn s) .boot (sendingRun ++ [.updateStatus 0 2]) ∧
      ¬ StepsMeet Chat.step (fun s op => op.MarksOwn s) .boot
        [.create, .sendMessage [0x68] true, .cleanup, .create, .sendMessage [0x69] true,
          .updateStatus 0 2] := by
  decide

end SimpleGo
