import SimpleGo.History.Refinement
import SimpleGo.Tasks.Receipts
import SimpleGo.Ui.Rendering

/-!
# The status of a sent message

What happens to a typed message between the input field, the App Task, the history on the card
and the bubbles: `do_send_message` with `chat_send_cb`, `app_process_keyboard_queue`, the
receipts, the status events of the UI's queue and the reload of a history. Beside the state is
recorded which typed message a record, a cached message and a bubble are of, and whose sending
failed.
-/

namespace SimpleGo

open Lib

variable {K : Type}

/-- `HISTORY_STATUS_SENT`. -/
def historyStatusSent : UInt8 := 0

/-- `HISTORY_STATUS_FAILED`. -/
def historyStatusFailed : UInt8 := 2

/-- `MSG_STATUS_SENT`. -/
def msgStatusSent : ℤ := 1

/-- `MSG_STATUS_DELIVERED`. -/
def msgStatusDelivered : ℤ := 2

/-- `MSG_STATUS_FAILED`. -/
def msgStatusFailed : ℤ := 3

/-- An entry of `kbd_msg_queue`; the number of the typed message is not in the source. -/
structure KeyboardMsg where
  message : ℕ
  text : List UInt8
  deriving DecidableEq

/-- A `UI_EVT_DELIVERY_STATUS`. -/
structure StatusEvent where
  msgSeq : UInt32
  status : ℤ
  deriving DecidableEq

/-- How the App Task gets on with a typed message: the contact is not active, or
`peer_send_chat_message` succeeds, with the id of the message, or fails. -/
inductive SendOutcome where
  | inactive
  | sent (msgId : UInt64)
  | failed
  deriving DecidableEq

/-- A `history_message_t` around a C string. -/
def historyMessageOf (direction deliveryStatus : UInt8) (timestamp : Int64) (text : List UInt8) :
    HistoryMessage where
  direction := direction
  deliveryStatus := deliveryStatus
  timestamp := timestamp
  textLen := UInt16.ofNat (min (UInt16.ofNat text.length).toNat historyMaxText)
  text := fun i => text.getD i 0

/-- A loaded message in the cache of the chat: its text ends at the zero byte. -/
def HistoryMessage.cached (msg : HistoryMessage) : CachedMessage where
  direction := msg.direction
  deliveryStatus := msg.deliveryStatus
  text := (window msg.text 0 msg.textLen.toNat).takeWhile fun b => b != 0

/-- The history, the chat and the queues between the tasks. -/
structure MessageTasks (K : Type) where
  dev : HistoryDevice K
  chat : Chat
  /-- `kbd_msg_queue`. -/
  kbdQueue : List KeyboardMsg
  msgMappings : List MsgMapping
  /-- The status events in `app_to_ui_queue`. -/
  statusEvents : List StatusEvent
  /-- The typed messages whose sending failed. -/
  failed : List ℕ
  /-- The typed messages that the records of a slot are of. -/
  logOf : UInt8 → List (Option ℕ)
  /-- Those that the messages of the batch are of. -/
  batchOf : List (Option ℕ)
  /-- Those that the messages of the cache are of. -/
  cacheOf : List (Option ℕ)
  /-- Those that the bubbles created from batch and cache are of. -/
  drawnOf : List (ℕ × Option ℕ)

/-- The new bubbles with the messages they are of, by the indices they were created from. -/
def drawnLabels (created : ℕ) (labels : List (Option ℕ)) (indices : List ℕ) :
    List (ℕ × Option ℕ) :=
  indices.zipIdx.map fun (i, k) => (created + k, labels[i]?.join)

namespace MessageTasks

/-- The state at start-up, with a card that has no history yet. -/
def boot (masterKey : Bytes 32) : MessageTasks K where
  dev := { HistoryDevice.blank with initialized := true, masterKey := masterKey }
  chat := .boot
  kbdQueue := []
  msgMappings := List.replicate maxMsgMappings ⟨0, 0, false⟩
  statusEvents := []
  failed := []
  logOf := fun _ => []
  batchOf := []
  cacheOf := []
  drawnOf := []

variable (s : MessageTasks K)

/-! ### The UI -/

/-- What the cached messages are of when a live message may be cached. -/
def cacheOfLive (contactIdx : ℕ) (label : Option ℕ) : List (Option ℕ) :=
  if s.chat.screen = true ∧ s.chat.cacheAllocated = true ∧ s.chat.cacheSlot = some contactIdx ∧
      s.chat.cache.length < msgCacheSize then
    s.cacheOf ++ [label]
  else s.cacheOf

/-- `do_send_message` with `chat_send_cb`: the queue has four entries of 255 characters. -/
def typeText (text : List UInt8) (room : Bool) : MessageTasks K :=
  if s.chat.screen = false ∨ text = [] then s
  else
    let message := s.chat.sent.length
    { s with
      chat := s.chat.doSendMessage text room
      kbdQueue :=
        if s.kbdQueue.length < 4 then s.kbdQueue ++ [⟨message, text.take 255⟩] else s.kbdQueue
      cacheOf := s.cacheOfLive s.chat.activeContact (some message) }

/-- `UI_EVT_MESSAGE`, which the App Task sends for received messages only. -/
def showMessage (text : List UInt8) (contactIdx : ℕ) (room : Bool) : MessageTasks K :=
  { s with
    chat := s.chat.uiChatAddMessage text false contactIdx none room
    cacheOf := s.cacheOfLive contactIdx none }

/-- `UI_EVT_DELIVERY_STATUS`: the next event, dropped when the chat screen is not shown. -/
def handleStatusEvent : MessageTasks K :=
  match s.statusEvents with
  | [] => s
  | event :: rest =>
    { s with
      chat :=
        if s.chat.screen then
          { s.chat with
            bubbles := s.chat.bubbles.chatBubbleUpdateStatus event.msgSeq event.status }
        else s.chat
      statusEvents := rest }

/-- `ui_chat_cleanup`. -/
def cleanup : MessageTasks K :=
  { s with
    chat := s.chat.uiChatCleanup
    cacheOf := if s.chat.screen then [] else s.cacheOf }

/-- `ui_chat_switch_contact`. -/
def switchContact (contactIdx : ℕ) : MessageTasks K :=
  { s with
    chat := s.chat.uiChatSwitchContact contactIdx
    cacheOf := if s.chat.screen = true ∧ s.chat.cacheAllocated = true then [] else s.cacheOf }

/-- The next chunk of a loaded history is rendered. -/
def renderTick (rooms : ℤ → Bool) : MessageTasks K :=
  { s with
    chat := s.chat.renderTick rooms
    drawnOf := s.drawnOf ++
      drawnLabels s.chat.bubbles.created s.batchOf (s.chat.renderedBatch rooms) }

/-- `on_scroll_cb`. -/
def scroll (nearTop nearBottom : Bool) (rooms : ℤ → Bool) : MessageTasks K :=
  { s with
    chat := s.chat.onScrollCb nearTop nearBottom rooms
    drawnOf := s.drawnOf ++
      drawnLabels s.chat.bubbles.created s.cacheOf (s.chat.renderedCache nearTop nearBottom rooms) }

/-! ### The App Task -/

/-- `smp_notify_ui_delivery_status`; `queued` says whether the UI's queue takes the event. -/
def notifyStatus (msgSeq : UInt32) (status : ℤ) (queued : Bool) : MessageTasks K :=
  { s with statusEvents := if queued then s.statusEvents ++ [⟨msgSeq, status⟩] else s.statusEvents }

/-- `smp_history_append` of a message that is of some typed message, or of none. -/
def appendHistory (H : HistoryPrimitives K) (slot : UInt8) (msg : HistoryMessage)
    (faults : AppendFaults) (label : Option ℕ) : MessageTasks K :=
  { s with
    dev := (smpHistoryAppend H s.dev slot msg faults).1
    logOf := Function.update s.logOf slot (s.logOf slot ++ [label]) }

/-- `app_process_keyboard_queue` for the next typed message; `slot` is
`s_active_contact_idx`. -/
def processKeyboard (H : HistoryPrimitives K) (slot : UInt8) (outcome : SendOutcome)
    (timestamp : Int64) (faults : AppendFaults) (queued : Bool) : MessageTasks K :=
  match s.kbdQueue with
  | [] => s
  | typed :: rest =>
    let seq := s.chat.bubbles.msgSeqCounter
    let s := { s with kbdQueue := rest }
    match outcome with
    | .inactive =>
      { s.notifyStatus seq msgStatusFailed queued with failed := s.failed ++ [typed.message] }
    | .sent msgId =>
      { s.notifyStatus seq msgStatusSent queued with
        msgMappings := smpRegisterMsgMapping seq msgId s.msgMappings }.appendHistory H slot
          (historyMessageOf historyDirSent historyStatusSent timestamp typed.text) faults
          (some typed.message)
    | .failed =>
      { s.notifyStatus seq msgStatusFailed queued with
        failed := s.failed ++ [typed.message] }.appendHistory H slot
          (historyMessageOf historyDirSent historyStatusFailed timestamp typed.text) faults
          (some typed.message)

/-- A chat message is received: it is appended to the history of its contact. -/
def receive (H : HistoryPrimitives K) (slot : UInt8) (text : List UInt8) (timestamp : Int64)
    (faults : AppendFaults) : MessageTasks K :=
  s.appendHistory H slot (historyMessageOf historyDirReceived 0 timestamp text) faults none

/-- `smp_notify_receipt_received` for the ids of a receipt; the queue may refuse events. -/
def notifyReceipts (queued : ℕ → Bool) :
    (n : ℕ) → List UInt64 → MessageTasks K → MessageTasks K
  | _, [], s => s
  | n, msgId :: rest, s =>
    let found := findSeqByMsgId msgId s.msgMappings
    let s := { s with msgMappings := found.2 }
    notifyReceipts queued (n + 1) rest
      (if found.1 > 0 then s.notifyStatus found.1 msgStatusDelivered (queued n) else s)

/-- A delivery receipt is received: the UI is notified, and the high-water mark is moved to the
last message. -/
def receipt (slot : UInt8) (body : List UInt8) (queued : ℕ → Bool) (countFaults : CountFaults)
    (faults : UpdateFaults) : MessageTasks K :=
  if hasInnerTag body 0x56 && decide (innerOffset body + 1 < body.length) then
    let s := notifyReceipts queued 0 (extractReceipts body) s
    match smpHistoryGetCounts s.dev slot countFaults with
    | (.ok, some (total, _)) =>
      if total > 0 then
        { s with dev := (smpHistoryUpdateDelivered s.dev slot (total - 1) faults).1 }
      else s
    | _ => s
  else s

/-- No history is loaded, and the UI's batch is emptied. -/
def noHistory : MessageTasks K :=
  { s with chat := s.chat.historyBatchEvent [] 0 false 0, batchOf := [] }

/-- A history is loaded and marked as read, and the UI gets the batch. -/
def reload (H : HistoryOpening K) (slot : UInt8) (faults : LoadFaults) (heap : Mem)
    (markFaults : UpdateFaults) (alloc : Bool) (freeSize : ℕ) : MessageTasks K :=
  match smpHistoryLoadRecent H s.dev slot historyMaxLoad faults heap with
  | (.ok, loaded) =>
    if loaded.isEmpty then s.noHistory
    else
      let labels := (s.logOf slot).rtake loaded.length
      { s with
        dev := (smpHistoryMarkRead s.dev slot markFaults).1
        chat := s.chat.historyBatchEvent (loaded.map HistoryMessage.cached) slot.toNat alloc
          freeSize
        batchOf := labels
        cacheOf :=
          if s.chat.screen = true ∧ (s.chat.cacheAllocated = true ∨ alloc = true) then labels
          else s.cacheOf }
  | _ => s.noHistory

end MessageTasks

/-- What happens between the input field, the App Task and the chat. -/
inductive MessageOp where
  | create
  | cleanup
  | switchContact (contactIdx : ℕ)
  | clearContact (contactIdx : Option ℕ)
  | renderTick (rooms : ℤ → Bool)
  | scroll (nearTop nearBottom : Bool) (rooms : ℤ → Bool)
  | typeText (text : List UInt8) (room : Bool)
  | showMessage (text : List UInt8) (contactIdx : ℕ) (room : Bool)
  | handleStatusEvent
  | processKeyboard (slot : UInt8) (outcome : SendOutcome) (timestamp : Int64)
      (faults : AppendFaults) (queued : Bool)
  | receive (slot : UInt8) (text : List UInt8) (timestamp : Int64) (faults : AppendFaults)
  | receipt (slot : UInt8) (body : List UInt8) (queued : ℕ → Bool) (countFaults : CountFaults)
      (faults : UpdateFaults)
  | reload (slot : UInt8) (faults : LoadFaults) (heap : Mem) (markFaults : UpdateFaults)
      (alloc : Bool) (freeSize : ℕ)

/-- The state after an operation. -/
def MessageTasks.step (H : HistoryOpening K) (s : MessageTasks K) : MessageOp → MessageTasks K
  | .create => { s with chat := s.chat.uiChatCreate }
  | .cleanup => s.cleanup
  | .switchContact contactIdx => s.switchContact contactIdx
  | .clearContact contactIdx => { s with chat := s.chat.uiChatClearContact contactIdx }
  | .renderTick rooms => s.renderTick rooms
  | .scroll nearTop nearBottom rooms => s.scroll nearTop nearBottom rooms
  | .typeText text room => s.typeText text room
  | .showMessage text contactIdx room => s.showMessage text contactIdx room
  | .handleStatusEvent => s.handleStatusEvent
  | .processKeyboard slot outcome timestamp faults queued =>
    s.processKeyboard H.toHistoryPrimitives slot outcome timestamp faults queued
  | .receive slot text timestamp faults =>
    s.receive H.toHistoryPrimitives slot text timestamp faults
  | .receipt slot body queued countFaults faults => s.receipt slot body queued countFaults faults
  | .reload slot faults heap markFaults alloc freeSize =>
    s.reload H slot faults heap markFaults alloc freeSize

end SimpleGo
