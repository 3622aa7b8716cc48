import SimpleGo.Lib.Slices

/-!
# Chat bubbles

The bubbles of the chat screen: how one is created from a live message or from the history,
the table of the status labels that wait for an update, and the removal of bubbles at either
end. LVGL keeps the children of the message container in a list, and a bubble owns its status
label. A creation is refused when the memory pool of LVGL is low; whether it is, is an input.
-/

namespace SimpleGo

open Lib

/-- `ST_SENDING`, `ST_SENT`, `ST_DELIVERED` and `ST_FAILED`. -/
inductive StatusMark where
  | sending | sent | delivered | failed
  deriving DecidableEq

/-- A bubble in the message container. -/
structure Bubble where
  /-- The LVGL object, numbered in the order of creation. -/
  id : ℕ
  /-- The user data: the contact, none for `-1`. -/
  tag : Option ℕ
  text : List UInt8
  isOutgoing : Bool
  /-- The status label, which an incoming message does not have. -/
  mark : Option StatusMark
  /-- The message typed by the user that the bubble was created for; not in the source. -/
  message : Option ℕ
  deriving DecidableEq

/-- `tracked_msg_t`. -/
structure TrackedMsg where
  /-- The bubble that owns the label, none for `NULL`. -/
  statusLabel : Option ℕ
  msgSeq : UInt32
  active : Bool
  deriving DecidableEq

/-- The message container and the static variables of `ui_chat_bubble.c`. -/
structure ChatBubbles where
  children : List Bubble
  /-- How many bubbles LVGL has created. -/
  created : ℕ
  trackedMsgs : List TrackedMsg
  msgSeqCounter : UInt32
  bubbleCount : ℕ
  deriving DecidableEq

/-- `HISTORY_DISPLAY_TEXT`. -/
def historyDisplayText : ℕ := 512

/-- The text of the message label: a long message ends in three dots. -/
def displayText (text : List UInt8) : List UInt8 :=
  if historyDisplayText < text.length then text.take historyDisplayText ++ [0x2E, 0x2E, 0x2E]
  else text

/-- The text of a new status label. -/
def statusMark (deliveryStatus : ℤ) : StatusMark :=
  if deliveryStatus < 0 then .sending else if 1 ≤ deliveryStatus then .delivered else .sent

/-- The text that `chat_bubble_update_status` writes, if it writes one. -/
def updatedMark (status : ℤ) : Option StatusMark :=
  if status = 0 then some .sending else if status = 1 then some .sent
  else if status = 2 then some .delivered else if status = 3 then some .failed else none

/-- A status label is entered in the first free place of the table. -/
def trackLabel (label : ℕ) (seq : UInt32) : List TrackedMsg → List TrackedMsg
  | [] => []
  | entry :: rest =>
    if entry.active then entry :: trackLabel label seq rest else ⟨some label, seq, true⟩ :: rest

/-- The first active entry with a number. -/
def findTracked (seq : UInt32) (entries : List TrackedMsg) : Option TrackedMsg :=
  entries.find? fun entry => entry.active && entry.msgSeq == seq

/-- That entry is not active any more. -/
def finishTracked (seq : UInt32) : List TrackedMsg → List TrackedMsg
  | [] => []
  | entry :: rest =>
    if entry.active && entry.msgSeq == seq then { entry with active := false } :: rest
    else entry :: finishTracked seq rest

/-- The text of one bubble's status label is set. -/
def setMark (label : ℕ) (mark : StatusMark) (children : List Bubble) : List Bubble :=
  children.map fun b => if b.id = label then { b with mark := some mark } else b

/-- The bubble is tagged with this contact. -/
def Bubble.isOf (contactIdx : Option ℕ) (b : Bubble) : Bool :=
  b.tag.isSome && b.tag == contactIdx

namespace ChatBubbles

variable (s : ChatBubbles)

/-- The variables after a reset; LVGL has created some bubbles. -/
def blank (created : ℕ) : ChatBubbles where
  children := []
  created := created
  trackedMsgs := List.replicate 16 ⟨none, 0, false⟩
  msgSeqCounter := 0
  bubbleCount := 0

/-- `create_bubble_internal`; `room` says that the pool has enough memory. -/
def createBubbleInternal (text : List UInt8) (isOutgoing : Bool) (contactIdx : Option ℕ)
    (deliveryStatus : ℤ) (message : Option ℕ) (room : Bool) : ChatBubbles :=
  if room then
    { s with
      children := s.children ++
        [{ id := s.created
           tag := contactIdx
           text := displayText text
           isOutgoing := isOutgoing
           mark := if isOutgoing then some (statusMark deliveryStatus) else none
           message := message }]
      created := s.created + 1
      trackedMsgs :=
        if isOutgoing = true ∧ deliveryStatus < 0 then
          trackLabel s.created s.msgSeqCounter s.trackedMsgs
        else s.trackedMsgs
      bubbleCount := s.bubbleCount + 1 }
  else s

/-- `chat_bubble_add_live`. -/
def chatBubbleAddLive (text : List UInt8) (isOutgoing : Bool) (contactIdx : Option ℕ)
    (message : Option ℕ) (room : Bool) : ChatBubbles :=
  s.createBubbleInternal text isOutgoing contactIdx (-1) message room

/-- `chat_bubble_add_history`. -/
def chatBubbleAddHistory (text : List UInt8) (isOutgoing : Bool) (contactIdx : Option ℕ)
    (deliveryStatus : UInt8) (room : Bool) : ChatBubbles :=
  s.createBubbleInternal text isOutgoing contactIdx deliveryStatus.toNat none room

/-- The label that `chat_bubble_update_status` writes to. -/
def touchedLabel (msgSeq : UInt32) : Option ℕ :=
  (findTracked msgSeq s.trackedMsgs).bind TrackedMsg.statusLabel

/-- `chat_bubble_update_status`. -/
def chatBubbleUpdateStatus (msgSeq : UInt32) (status : ℤ) : ChatBubbles :=
  match findTracked msgSeq s.trackedMsgs with
  | none => s
  | some entry =>
    match entry.statusLabel with
    | none => { s with trackedMsgs := finishTracked msgSeq s.trackedMsgs }
    | some label =>
      { s with
        children :=
          match updatedMark status with
          | none => s.children
          | some mark => setMark label mark s.children
        trackedMsgs :=
          if status = 2 ∨ status = 3 then finishTracked msgSeq s.trackedMsgs
          else s.trackedMsgs }

/-- `chat_bubble_next_seq`. -/
def chatBubbleNextSeq : ChatBubbles := { s with msgSeqCounter := s.msgSeqCounter + 1 }

/-- `lv_obj_clean` on the container, and `chat_bubble_reset_count`. -/
def clean : ChatBubbles := { s with children := [], bubbleCount := 0 }

/-- The container with some children, the others deleted and taken off the count. -/
def keep (children : List Bubble) : ChatBubbles :=
  { s with
    children := children
    bubbleCount := s.bubbleCount - (s.children.length - children.length) }

/-- `chat_bubble_remove_oldest`. -/
def chatBubbleRemoveOldest (count : ℤ) (contactIdx : Option ℕ) : ChatBubbles :=
  if count ≤ 0 then s else s.keep (removeFirst (Bubble.isOf contactIdx) count.toNat s.children)

/-- `chat_bubble_remove_newest`. -/
def chatBubbleRemoveNewest (count : ℤ) (contactIdx : Option ℕ) : ChatBubbles :=
  if count ≤ 0 then s else s.keep (removeLast (Bubble.isOf contactIdx) count.toNat s.children)

/-- How many bubbles a removal has removed. -/
def removed (s' : ChatBubbles) : ℕ := s.children.length - s'.children.length

/-- The last child is moved to the front: `lv_obj_move_to_index(bubble, 0)`. -/
def lastToFront : ChatBubbles :=
  { s with children := s.children.getLast?.toList ++ s.children.dropLast }

/-- An update sets at most the text of the label it finds, and at most ends its tracking. -/
theorem chatBubbleUpdateStatus_cases (msgSeq : UInt32) (status : ℤ) :
    ∃ children trackedMsgs, s.chatBubbleUpdateStatus msgSeq status =
        { s with children := children, trackedMsgs := trackedMsgs } ∧
      (children = s.children ∨ ∃ label mark, s.touchedLabel msgSeq = some label ∧
        updatedMark status = some mark ∧ children = setMark label mark s.children) ∧
      (trackedMsgs = s.trackedMsgs ∨ trackedMsgs = finishTracked msgSeq s.trackedMsgs) := by
  rw [chatBubbleUpdateStatus, touchedLabel]
  cases hfind : findTracked msgSeq s.trackedMsgs with
  | none => exact ⟨_, _, rfl, Or.inl rfl, Or.inl rfl⟩
  | some entry =>
    cases hlabel : entry.statusLabel with
    | none => exact ⟨s.children, _, by simp only [hlabel], Or.inl rfl, Or.inr rfl⟩
    | some label =>
      simp only [hlabel]
      refine ⟨_, _, rfl, ?_, ?_⟩
      · cases hmark : updatedMark status with
        | none => exact Or.inl rfl
        | some mark => exact Or.inr ⟨label, mark, hlabel, rfl, rfl⟩
      · by_cases hdone : status = 2 ∨ status = 3
        · exact Or.inr (if_pos hdone)
        · exact Or.inl (if_neg hdone)

end ChatBubbles

end SimpleGo
