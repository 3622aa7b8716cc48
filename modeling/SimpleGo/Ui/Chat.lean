import Mathlib.Data.Int.Notation
import SimpleGo.Lib.Runs
import SimpleGo.Ui.Bubbles

/-!
# The chat screen

The cache of one contact's last messages and the window of it that is shown as bubbles:
`ui_chat.c`, with the part of `main.c` that renders a loaded history in chunks. The screen is
destroyed when the user leaves it. Every creation of a bubble may be refused; an operation
takes as an input which of its creations are not.
-/

namespace SimpleGo

open Lib

/-- A `history_message_t` in the cache; its text ends at the zero byte. -/
structure CachedMessage where
  direction : UInt8
  deliveryStatus : UInt8
  text : List UInt8
  deriving DecidableEq

/-- The direction is `HISTORY_DIR_SENT`. -/
def CachedMessage.isSent (m : CachedMessage) : Bool := m.direction == 0

/-- `MSG_CACHE_SIZE`. -/
def msgCacheSize : ℕ := 30

/-- `BUBBLE_WINDOW_SIZE`. -/
def bubbleWindowSize : ℤ := 5

/-- `SCROLL_LOAD_COUNT`. -/
def scrollLoadCount : ℤ := 2

/-- `HISTORY_CHUNK_SIZE`. -/
def historyChunkSize : ℤ := 3

/-- The static variables of `ui_chat.c` and those of `main.c` for the rendering. -/
structure Chat where
  /-- `screen` and `msg_container` are there. -/
  screen : Bool
  bubbles : ChatBubbles
  /-- `s_chat_active_contact`. -/
  activeContact : ℕ
  /-- `s_msg_cache` is allocated. -/
  cacheAllocated : Bool
  /-- The first `s_cache_count` messages of `s_msg_cache`. -/
  cache : List CachedMessage
  /-- `s_cache_slot`, none for `-1`. -/
  cacheSlot : Option ℕ
  windowStart : ℤ
  windowEnd : ℤ
  loadingOlder : Bool
  loadingNewer : Bool
  windowBusy : Bool
  windowSetup : Bool
  /-- The first `smp_history_batch_count` messages of `smp_history_batch`. -/
  histBatch : List CachedMessage
  histBatchSlot : Option ℕ
  histRenderIdx : ℤ
  histRenderEnd : ℤ
  histRendering : Bool
  /-- The numbers given to the messages that the user has sent; not in the source. -/
  sent : List UInt32

namespace Chat

/-- The variables before the chat screen is created. -/
def boot : Chat where
  screen := false
  bubbles := .blank 0
  activeContact := 0
  cacheAllocated := false
  cache := []
  cacheSlot := none
  windowStart := 0
  windowEnd := 0
  loadingOlder := false
  loadingNewer := false
  windowBusy := false
  windowSetup := false
  histBatch := []
  histBatchSlot := none
  histRenderIdx := 0
  histRenderEnd := 0
  histRendering := false
  sent := []

variable (s : Chat)

/-- `s_cache_count`. -/
def cacheCount : ℤ := s.cache.length

/-! ### The screen -/

/-- `ui_chat_create`. -/
def uiChatCreate : Chat := { s with screen := true }

/-- `ui_chat_cleanup`, and the objects are deleted; it is called for a screen that is there. -/
def uiChatCleanup : Chat :=
  if s.screen then
    { s with
      screen := false
      bubbles := .blank s.bubbles.created
      cache := []
      cacheSlot := none
      windowStart := 0
      windowEnd := 0
      loadingOlder := false
      loadingNewer := false
      windowBusy := false
      windowSetup := false }
  else s

/-- `ui_chat_switch_contact`: the cache is wiped with the bubbles. -/
def uiChatSwitchContact (contactIdx : ℕ) : Chat :=
  if s.screen then
    { s with
      activeContact := contactIdx
      windowSetup := true
      bubbles := s.bubbles.clean
      cache := if s.cacheAllocated then [] else s.cache }
  else { s with activeContact := contactIdx }

/-- `ui_chat_clear_contact`; none is `-1`, which clears all. -/
def uiChatClearContact (contactIdx : Option ℕ) : Chat :=
  if s.screen then
    { s with
      bubbles :=
        match contactIdx with
        | none => s.bubbles.clean
        | some _ => s.bubbles.keep (s.bubbles.children.filter fun b => !b.isOf contactIdx) }
  else s

/-! ### Live messages -/

/-- A bubble is removed before a live message of the active contact when there are enough. -/
def evict : Chat :=
  if bubbleWindowSize ≤ s.bubbles.bubbleCount then
    let bubbles := s.bubbles.chatBubbleRemoveOldest 1 (some s.activeContact)
    { s with
      bubbles := bubbles
      windowStart := s.windowStart + s.bubbles.removed bubbles }
  else s

/-- A live message is added to a cache of its contact that is not full. -/
def cacheLive (text : List UInt8) (isOutgoing : Bool) (contactIdx : ℕ) : Chat :=
  if s.cacheAllocated = true ∧ s.cacheSlot = some contactIdx ∧ s.cache.length < msgCacheSize then
    { s with
      cache := s.cache ++ [⟨if isOutgoing then 0 else 1, 0xFF, text.take 4095⟩]
      windowEnd := s.cache.length + 1 }
  else s

/-- `ui_chat_add_message`. -/
def uiChatAddMessage (text : List UInt8) (isOutgoing : Bool) (contactIdx : ℕ)
    (message : Option ℕ) (room : Bool) : Chat :=
  if s.screen then
    let s := if contactIdx = s.activeContact then s.evict else s
    let s := { s with
      bubbles := s.bubbles.chatBubbleAddLive text isOutgoing (some contactIdx) message room }
    s.cacheLive text isOutgoing contactIdx
  else s

/-- `do_send_message`, when no migration blocks it. -/
def doSendMessage (text : List UInt8) (room : Bool) : Chat :=
  if s.screen = false ∨ text = [] then s
  else
    let bubbles := s.bubbles.chatBubbleNextSeq
    { s with bubbles := bubbles, sent := s.sent ++ [bubbles.msgSeqCounter] }.uiChatAddMessage
      text true s.activeContact (some s.sent.length) room

/-- `ui_chat_update_status` for the number of a sent message. -/
def uiChatUpdateStatus (message : ℕ) (status : ℤ) : Chat :=
  match s.sent[message]? with
  | none => s
  | some msgSeq =>
    if s.screen then { s with bubbles := s.bubbles.chatBubbleUpdateStatus msgSeq status } else s

/-! ### Loading a history -/

/-- How many bubbles the pool has memory for, from one to the size of the window. -/
def maxSafe (freeSize : ℕ) : ℤ :=
  let n := ((freeSize : ℤ) - 4500).tdiv 1200
  if n < 1 then 1 else if bubbleWindowSize < n then bubbleWindowSize else n

/-- `ui_chat_cache_history`; `alloc` says whether the cache can be allocated. -/
def uiChatCacheHistory (batch : List CachedMessage) (slot : ℕ) (alloc : Bool) (freeSize : ℕ) :
    Chat :=
  if s.screen = false then s
  else if s.cacheAllocated = false ∧ alloc = false then
    { s with bubbles := s.bubbles.clean, windowSetup := false }
  else
    let cache := batch.drop (batch.length - msgCacheSize)
    { s with
      windowSetup := true
      bubbles := s.bubbles.clean
      cacheAllocated := true
      cache := cache
      cacheSlot := some slot
      windowEnd := cache.length
      windowStart := max 0 (cache.length - maxSafe freeSize)
      loadingOlder := false
      loadingNewer := false
      windowBusy := false }

/-- `UI_EVT_HISTORY_BATCH` with the messages that `smp_history_load_recent` has put into
`smp_history_batch`, at most `HISTORY_MAX_LOAD`. Without any the batch that was there is gone, and a
rendering of it goes no further. -/
def historyBatchEvent (loaded : List CachedMessage) (slot : ℕ) (alloc : Bool) (freeSize : ℕ) :
    Chat :=
  let batch := loaded.take 20
  if batch = [] then { s with histBatch := [], histBatchSlot := none }
  else
    let s := s.uiChatCacheHistory batch slot alloc freeSize
    { s with
      histBatch := batch
      histBatchSlot := some slot
      histRenderIdx := s.windowStart
      histRenderEnd := s.windowEnd
      histRendering := true }

/-- `ui_chat_add_history_message` with a message of the batch. -/
def uiChatAddHistoryMessage (m : CachedMessage) (room : Bool) : Chat :=
  if s.screen then
    { s with
      bubbles := s.bubbles.chatBubbleAddHistory m.text m.isSent s.histBatchSlot m.deliveryStatus
        room }
  else s

/-- Some messages of the batch are rendered, from an index on. -/
def renderBatch (rooms : ℤ → Bool) : ℕ → (h : ℤ) → Chat → Chat
  | 0, _, s => s
  | n + 1, h, s =>
    renderBatch rooms n (h + 1)
      (match s.histBatch[h.toNat]? with
      | none => s
      | some m => s.uiChatAddHistoryMessage m (rooms h))

/-- The rendering of `ui_poll_timer_cb`: the next chunk, and `ui_chat_window_render_done` behind
the last one. -/
def renderTick (rooms : ℤ → Bool) : Chat :=
  if s.histRendering = true ∧ s.histBatch ≠ [] then
    let stop := min (s.histRenderIdx + historyChunkSize) s.histRenderEnd
    let s := { s.renderBatch rooms (stop - s.histRenderIdx).toNat s.histRenderIdx with
      histRenderIdx := stop }
    if s.histRenderEnd ≤ stop then
      { s with
        windowSetup := false
        histBatch := []
        histBatchSlot := none
        histRendering := false }
    else s
  else s

/-! ### Scrolling -/

/-- `render_cache_bubble`. When the creation at the top is refused, the last child is moved all
the same. -/
def renderCacheBubble (rooms : ℤ → Bool) (cacheIdx : ℤ) (atTop : Bool) : Chat :=
  if cacheIdx < 0 ∨ s.cacheCount ≤ cacheIdx ∨ s.screen = false then s
  else
    match s.cache[cacheIdx.toNat]? with
    | none => s
    | some m =>
      let bubbles := s.bubbles.chatBubbleAddHistory m.text m.isSent s.cacheSlot m.deliveryStatus
        (rooms cacheIdx)
      let skipped := bubbles.bubbleCount = s.bubbles.bubbleCount
      { s with
        bubbles := if atTop then bubbles.lastToFront else bubbles
        windowStart := if skipped ∧ atTop = true then cacheIdx + 1 else s.windowStart
        windowEnd := if skipped ∧ atTop = false then cacheIdx else s.windowEnd }

/-- Messages are inserted at the top, from an index downwards. -/
def renderOlder (rooms : ℤ → Bool) : ℕ → (i : ℤ) → Chat → Chat
  | 0, _, s => s
  | n + 1, i, s => renderOlder rooms n (i - 1) (s.renderCacheBubble rooms i true)

/-- How many messages `load_older_messages` adds. -/
def olderCount : ℤ := min scrollLoadCount s.windowStart

/-- `load_older_messages`. -/
def loadOlderMessages (rooms : ℤ → Bool) : Chat :=
  if s.windowStart ≤ 0 then { s with loadingOlder := false, windowBusy := false }
  else
    let toAdd := s.olderCount
    let needRemove := s.windowEnd - s.windowStart + toAdd - bubbleWindowSize
    let bubbles := s.bubbles.chatBubbleRemoveNewest needRemove s.cacheSlot
    let s := { s with
      bubbles := bubbles
      windowEnd := s.windowEnd - s.bubbles.removed bubbles }
    let newStart := s.windowStart - toAdd
    { s.renderOlder rooms toAdd.toNat (s.windowStart - 1) with
      windowStart := newStart
      loadingOlder := false
      windowBusy := false }

/-- Messages are appended while the index is less than the end of the window and `toAdd`, and
each refused creation sets this end. Once the index has passed the cache the end stays, so
that the loop is over within the number of steps it is given. -/
def renderNewer (rooms : ℤ → Bool) (toAdd : ℤ) : (steps : ℕ) → (i : ℤ) → Chat → Chat
  | 0, _, s => s
  | steps + 1, i, s =>
    if i < s.windowEnd + toAdd then
      renderNewer rooms toAdd steps (i + 1) (s.renderCacheBubble rooms i false)
    else s

/-- How many messages `load_newer_messages` adds. -/
def newerCount : ℤ := min scrollLoadCount (s.cacheCount - s.windowEnd)

/-- `load_newer_messages`. -/
def loadNewerMessages (rooms : ℤ → Bool) : Chat :=
  if s.cacheCount ≤ s.windowEnd then { s with loadingNewer := false, windowBusy := false }
  else
    let toAdd := s.newerCount
    let needRemove := s.windowEnd - s.windowStart + toAdd - bubbleWindowSize
    let bubbles := s.bubbles.chatBubbleRemoveOldest needRemove s.cacheSlot
    let s := { s with
      bubbles := bubbles
      windowStart := s.windowStart + s.bubbles.removed bubbles }
    let s := s.renderNewer rooms toAdd (s.cacheCount - s.windowEnd + toAdd).toNat s.windowEnd
    { s with
      windowEnd := s.windowEnd + toAdd
      loadingNewer := false
      windowBusy := false }

/-- The scroll event may load something. -/
def scrollAllowed : Bool :=
  s.screen && s.cacheAllocated && !s.cache.isEmpty && !s.windowSetup && !s.windowBusy

/-- A scroll event near the top loads older messages. -/
def scrollsOlder (nearTop : Bool) : Bool :=
  s.scrollAllowed && nearTop && decide (0 < s.windowStart) && !s.loadingOlder

/-- A scroll event near the bottom loads newer messages, unless it loads older ones. -/
def scrollsNewer (nearTop nearBottom : Bool) : Bool :=
  s.scrollAllowed && !s.scrollsOlder nearTop && nearBottom &&
    decide (s.windowEnd < s.cacheCount) && !s.loadingNewer

/-- `on_scroll_cb`. The scroll events that the loading itself causes find `s_window_busy`. -/
def onScrollCb (nearTop nearBottom : Bool) (rooms : ℤ → Bool) : Chat :=
  if s.scrollsOlder nearTop then
    { s with loadingOlder := true, windowBusy := true }.loadOlderMessages rooms
  else if s.scrollsNewer nearTop nearBottom then
    { s with loadingNewer := true, windowBusy := true }.loadNewerMessages rooms
  else s

end Chat

/-- What happens to the chat screen. -/
inductive ChatOp where
  | create
  | cleanup
  | switchContact (contactIdx : ℕ)
  | clearContact (contactIdx : Option ℕ)
  | historyBatch (loaded : List CachedMessage) (slot : ℕ) (alloc : Bool) (freeSize : ℕ)
  | renderTick (rooms : ℤ → Bool)
  | scroll (nearTop nearBottom : Bool) (rooms : ℤ → Bool)
  | addMessage (text : List UInt8) (isOutgoing : Bool) (contactIdx : ℕ) (room : Bool)
  | sendMessage (text : List UInt8) (room : Bool)
  | updateStatus (message : ℕ) (status : ℤ)

/-- The chat screen after an operation. -/
def Chat.step (s : Chat) : ChatOp → Chat
  | .create => s.uiChatCreate
  | .cleanup => s.uiChatCleanup
  | .switchContact contactIdx => s.uiChatSwitchContact contactIdx
  | .clearContact contactIdx => s.uiChatClearContact contactIdx
  | .historyBatch loaded slot alloc freeSize => s.historyBatchEvent loaded slot alloc freeSize
  | .renderTick rooms => s.renderTick rooms
  | .scroll nearTop nearBottom rooms => s.onScrollCb nearTop nearBottom rooms
  | .addMessage text isOutgoing contactIdx room =>
    s.uiChatAddMessage text isOutgoing contactIdx none room
  | .sendMessage text room => s.doSendMessage text room
  | .updateStatus message status => s.uiChatUpdateStatus message status

end SimpleGo
