import SimpleGo.Ui.Chat

/-!
# The window of the chat screen

Whether the bubbles of the active contact are the messages of the cache between
`s_window_start` and `s_window_end`. Bubbles, cache and indices are changed one by one; they
stay together as long as no creation is refused where the indices count on it, a live message
is shown exactly when it is cached at the end of the window, and the bubbles are cleared only
with an empty window. `ui_chat_switch_contact` clears them and leaves the indices.
-/

namespace SimpleGo

open Lib

/-! ### What the bubbles show -/

/-- The text and the side of a bubble. -/
def Bubble.shown (b : Bubble) : List UInt8 × Bool := (b.text, b.isOutgoing)

/-- The text and the side a bubble of the message has. -/
def CachedMessage.shown (m : CachedMessage) : List UInt8 × Bool := (displayText m.text, m.isSent)

/-- The bubbles of a contact, in their order. -/
def ChatBubbles.bubblesOf (s : ChatBubbles) (contactIdx : ℕ) : List Bubble :=
  s.children.filter (Bubble.isOf (some contactIdx))

/-- The bubbles of a contact show these messages, and all bubbles are counted. -/
structure ChatBubbles.Shows (s : ChatBubbles) (contactIdx : ℕ) (shown : List (List UInt8 × Bool)) :
    Prop where
  bubbles : (s.bubblesOf contactIdx).map Bubble.shown = shown
  count : s.bubbleCount = s.children.length

/-- A bubble with a tag belongs to the contact of the tag. -/
theorem Bubble.isOf_some {b : Bubble} {contactIdx : ℕ} :
    b.isOf (some contactIdx) = true ↔ b.tag = some contactIdx := by
  rw [isOf, Bool.and_eq_true, beq_iff_eq]
  constructor
  · exact And.right
  · intro h
    exact ⟨h ▸ rfl, h⟩

namespace ChatBubbles.Shows

variable {s : ChatBubbles} {contactIdx : ℕ} {shown : List (List UInt8 × Bool)}

/-- Only the children and their count matter. -/
theorem congr (h : s.Shows contactIdx shown) {s' : ChatBubbles}
    (hchildren : s'.children = s.children) (hcount : s'.bubbleCount = s.bubbleCount) :
    s'.Shows contactIdx shown := by
  refine ⟨?_, ?_⟩
  · rw [bubblesOf, hchildren]
    exact h.bubbles
  · rw [hchildren, hcount]
    exact h.count

/-- As many messages as bubbles of the contact are shown, and these are counted. -/
theorem length_le (h : s.Shows contactIdx shown) : shown.length ≤ s.bubbleCount := by
  rw [← h.bubbles, List.length_map, h.count]
  exact List.length_filter_le _ _

/-- Nothing is shown in an empty container. -/
theorem clean (s : ChatBubbles) (contactIdx : ℕ) : s.clean.Shows contactIdx [] := ⟨rfl, rfl⟩

/-- A new bubble of the contact is the last. -/
theorem create (h : s.Shows contactIdx shown) (text : List UInt8) (isOutgoing : Bool)
    (deliveryStatus : ℤ) (message : Option ℕ) :
    (s.createBubbleInternal text isOutgoing (some contactIdx) deliveryStatus message true).Shows
      contactIdx (shown ++ [(displayText text, isOutgoing)]) := by
  refine ⟨?_, ?_⟩
  · rw [createBubbleInternal, if_pos rfl, bubblesOf, List.filter_append, List.map_append,
      ← bubblesOf, h.bubbles, List.filter_cons_of_pos (Bubble.isOf_some.mpr rfl)]
    rfl
  · rw [createBubbleInternal, if_pos rfl, List.length_append, ← h.count]
    rfl

/-- A bubble of another contact changes nothing, and neither does a refused one. -/
theorem create_other (h : s.Shows contactIdx shown) (text : List UInt8) (isOutgoing : Bool)
    {other : Option ℕ} (deliveryStatus : ℤ) (message : Option ℕ) {room : Bool}
    (hother : room = true → other ≠ some contactIdx) :
    (s.createBubbleInternal text isOutgoing other deliveryStatus message room).Shows
      contactIdx shown := by
  by_cases hroom : room = true
  · rw [createBubbleInternal, if_pos hroom]
    refine ⟨?_, ?_⟩
    · rw [bubblesOf, List.filter_append, List.map_append, ← bubblesOf, h.bubbles,
        List.filter_cons_of_neg, List.filter_nil, List.map_nil, List.append_nil]
      rw [Bubble.isOf_some]
      exact hother hroom
    · rw [List.length_append, ← h.count]
      rfl
  · rw [createBubbleInternal, if_neg hroom]
    exact h

/-- Some bubbles are deleted. -/
theorem keep (h : s.Shows contactIdx shown) {children : List Bubble}
    (hle : children.length ≤ s.children.length) {shown' : List (List UInt8 × Bool)}
    (hshown : (children.filter (Bubble.isOf (some contactIdx))).map Bubble.shown = shown') :
    (s.keep children).Shows contactIdx shown' := by
  refine ⟨hshown, ?_⟩
  rw [ChatBubbles.keep, h.count]
  exact Nat.sub_sub_self hle

/-- The oldest bubbles of the contact are deleted. -/
theorem removeOldest (h : s.Shows contactIdx shown) (count : ℤ) :
    (s.chatBubbleRemoveOldest count (some contactIdx)).Shows contactIdx
        (shown.drop count.toNat) ∧
      s.removed (s.chatBubbleRemoveOldest count (some contactIdx)) =
        min count.toNat shown.length := by
  rw [chatBubbleRemoveOldest]
  by_cases hcount : count ≤ 0
  · rw [if_pos hcount, Int.toNat_of_nonpos hcount, List.drop_zero, Nat.zero_min]
    exact ⟨h, Nat.sub_self _⟩
  · obtain ⟨hremoved, hle⟩ := length_removeFirst (Bubble.isOf (some contactIdx)) count.toNat
      s.children
    rw [if_neg hcount, removed]
    refine ⟨h.keep hle ?_, ?_⟩
    · rw [filter_removeFirst, List.map_drop, ← bubblesOf, h.bubbles]
    · rw [ChatBubbles.keep, hremoved, ← h.bubbles, List.length_map, bubblesOf]

/-- The newest bubbles of the contact are deleted. -/
theorem removeNewest (h : s.Shows contactIdx shown) (count : ℤ) :
    (s.chatBubbleRemoveNewest count (some contactIdx)).Shows contactIdx
        (shown.rdrop count.toNat) ∧
      s.removed (s.chatBubbleRemoveNewest count (some contactIdx)) =
        min count.toNat shown.length := by
  rw [chatBubbleRemoveNewest]
  by_cases hcount : count ≤ 0
  · rw [if_pos hcount, Int.toNat_of_nonpos hcount, List.rdrop_zero, Nat.zero_min]
    exact ⟨h, Nat.sub_self _⟩
  · obtain ⟨hremoved, hle⟩ := length_removeLast (Bubble.isOf (some contactIdx)) count.toNat
      s.children
    rw [if_neg hcount, removed]
    refine ⟨h.keep hle ?_, ?_⟩
    · rw [filter_removeLast, ← h.bubbles, bubblesOf, List.rdrop, List.rdrop, List.map_take,
        List.length_map]
    · rw [ChatBubbles.keep, hremoved, ← h.bubbles, List.length_map, bubblesOf]

/-- The last bubble of the contact, the last child, becomes the first. -/
theorem lastToFront {shown : List (List UInt8 × Bool)} {b : Bubble} {rest : List Bubble}
    (h : s.Shows contactIdx shown) (hchildren : s.children = rest ++ [b])
    (hb : b.tag = some contactIdx) :
    s.lastToFront.Shows contactIdx (b.shown :: shown.dropLast) := by
  have hfilter : b.isOf (some contactIdx) = true := Bubble.isOf_some.mpr hb
  refine ⟨?_, ?_⟩
  · have hshown := h.bubbles
    rw [bubblesOf, hchildren, List.filter_append, List.map_append,
      List.filter_cons_of_pos hfilter, List.filter_nil, List.map_cons, List.map_nil] at hshown
    rw [bubblesOf, ChatBubbles.lastToFront, hchildren, List.getLast?_concat, List.dropLast_concat,
      ← hshown, List.dropLast_concat]
    change (List.filter _ (b :: rest)).map _ = _
    rw [List.filter_cons_of_pos hfilter, List.map_cons]
  · rw [ChatBubbles.lastToFront, hchildren, List.getLast?_concat, List.dropLast_concat]
    change s.bubbleCount = (b :: rest).length
    rw [h.count, hchildren, List.length_append, List.length_cons, List.length_cons,
      List.length_nil]

/-- A new bubble of the contact is moved to the front. -/
theorem create_lastToFront (h : s.Shows contactIdx shown) (text : List UInt8) (isOutgoing : Bool)
    (deliveryStatus : ℤ) (message : Option ℕ) :
    (s.createBubbleInternal text isOutgoing (some contactIdx) deliveryStatus message
      true).lastToFront.Shows contactIdx ((displayText text, isOutgoing) :: shown) := by
  have hcreate := h.create text isOutgoing deliveryStatus message
  have hfront := hcreate.lastToFront (by rw [createBubbleInternal, if_pos rfl]) rfl
  rwa [List.dropLast_concat] at hfront

/-- An update of a status label changes no text. -/
theorem updateStatus (h : s.Shows contactIdx shown) (msgSeq : UInt32) (status : ℤ) :
    (s.chatBubbleUpdateStatus msgSeq status).Shows contactIdx shown := by
  obtain ⟨children, trackedMsgs, heq, hchildren, -⟩ := s.chatBubbleUpdateStatus_cases msgSeq status
  rw [heq]
  rcases hchildren with rfl | ⟨label, mark, -, -, rfl⟩
  · exact h.congr rfl rfl
  · have htag : ∀ b : Bubble,
        (if b.id = label then { b with mark := some mark } else b).isOf (some contactIdx) =
          b.isOf (some contactIdx) ∧
        (if b.id = label then { b with mark := some mark } else b).shown = b.shown := by
      intro b
      by_cases hb : b.id = label
      · rw [if_pos hb]
        exact ⟨rfl, rfl⟩
      · rw [if_neg hb]
        exact ⟨rfl, rfl⟩
    refine ⟨?_, by rw [setMark, List.length_map, ← h.count]⟩
    rw [← h.bubbles, bubblesOf, bubblesOf, setMark, List.filter_map, List.map_map]
    refine congrArg₂ List.map (funext fun b => (htag b).2) (List.filter_congr fun b _ => ?_)
    exact (htag b).1

end ChatBubbles.Shows

/-! ### The window -/

namespace Chat

/-- The window as far as it is drawn; a loaded history is rendered chunk by chunk. -/
def windowDrawn (s : Chat) : ℤ := if s.histRendering then s.histRenderIdx else s.windowEnd

/-- What the messages of the window look like. -/
def windowShown (s : Chat) : List (List UInt8 × Bool) :=
  (slice s.cache s.windowStart.toNat s.windowDrawn.toNat).map CachedMessage.shown

/-- The window lies in the cache and has at most `BUBBLE_WINDOW_SIZE` messages, and the bubbles
of the active contact are those of its messages, in their order. -/
structure WindowExact (s : Chat) : Prop where
  start_nonneg : 0 ≤ s.windowStart
  start_le : s.windowStart ≤ s.windowEnd
  end_le : s.windowEnd ≤ s.cacheCount
  size : s.windowEnd - s.windowStart ≤ bubbleWindowSize
  bubbles : (s.bubbles.bubblesOf s.activeContact).map Bubble.shown = s.windowShown

/-- A live message of the contact is put into the cache. -/
def caches (s : Chat) (contactIdx : ℕ) : Bool :=
  s.cacheAllocated && s.cacheSlot == some contactIdx && decide (s.cache.length < msgCacheSize)

/-- A live message is shown exactly when it is cached, and it is cached at the end of a window
that is drawn to its end. -/
def LiveFits (s : Chat) (contactIdx : ℕ) (room : Bool) : Prop :=
  (s.caches contactIdx = true ↔ contactIdx = s.activeContact ∧ room = true) ∧
    (s.caches contactIdx = true → s.windowEnd = s.cacheCount ∧ s.histRendering = false)

instance (s : Chat) (contactIdx : ℕ) (room : Bool) : Decidable (s.LiveFits contactIdx room) :=
  inferInstanceAs (Decidable (_ ∧ _))

end Chat

/-- The operation leaves bubbles and window together. The chat is left only with an empty
window, the screen comes back only when nothing is left to render, a history is that of the
active contact and does not come empty while another one is being rendered, no creation of a bubble
is refused while messages are rendered from the batch or from the cache, and a live message
fits. -/
def ChatOp.KeepsWindow (s : Chat) : ChatOp → Prop
  | .create =>
    s.screen = false ∧ s.histRendering = true → s.histRenderIdx = 0 ∧ s.histRenderEnd = 0
  | .cleanup | .updateStatus _ _ => True
  | .switchContact _ => s.screen = true → s.windowEnd = 0
  | .clearContact contactIdx =>
    s.screen = true → s.windowDrawn = s.windowStart ∨
      (contactIdx ≠ none ∧ contactIdx ≠ some s.activeContact)
  | .historyBatch loaded slot alloc _ =>
    (s.screen = true ∧ loaded ≠ [] → slot = s.activeContact ∨
      (s.cacheAllocated = false ∧ alloc = false)) ∧
    (s.screen = true ∧ s.histRendering = true ∧ s.histRenderIdx < s.histRenderEnd → loaded ≠ [])
  | .renderTick rooms =>
    s.screen = true ∧ s.histRendering = true →
      ∀ k < (min (s.histRenderIdx + historyChunkSize) s.histRenderEnd - s.histRenderIdx).toNat,
        rooms (s.histRenderIdx + k) = true
  | .scroll nearTop nearBottom rooms =>
    (s.scrollsOlder nearTop = true →
      ∀ k < s.olderCount.toNat, rooms (s.windowStart - 1 - k) = true) ∧
    (s.scrollsNewer nearTop nearBottom = true →
      ∀ k < s.newerCount.toNat, rooms (s.windowEnd + k) = true)
  | .addMessage _ _ contactIdx room => s.screen = true → s.LiveFits contactIdx room
  | .sendMessage text room => s.screen = true ∧ text ≠ [] → s.LiveFits s.activeContact room

instance (s : Chat) : (op : ChatOp) → Decidable (op.KeepsWindow s)
  | .create => inferInstanceAs (Decidable (_ → _))
  | .cleanup | .updateStatus _ _ => isTrue trivial
  | .switchContact _ => inferInstanceAs (Decidable (_ → _))
  | .clearContact _ => inferInstanceAs (Decidable (_ → _))
  | .historyBatch _ _ _ _ => inferInstanceAs (Decidable (_ ∧ _))
  | .renderTick _ => inferInstanceAs (Decidable (_ → _))
  | .scroll _ _ _ => inferInstanceAs (Decidable (_ ∧ _))
  | .addMessage _ _ _ _ => inferInstanceAs (Decidable (_ → _))
  | .sendMessage _ _ => inferInstanceAs (Decidable (_ → _))

namespace Chat

/-! ### The invariant -/

/-- The rest of the window is still in the batch, and scrolling is blocked. -/
structure Rendering (s : Chat) : Prop where
  start_le : s.windowStart ≤ s.histRenderIdx
  idx_le : s.histRenderIdx ≤ s.histRenderEnd
  end_eq : s.histRenderEnd = s.windowEnd
  setup : s.cache ≠ [] → s.windowSetup = true
  batch : ∀ h : ℕ, s.histRenderIdx ≤ h → h < s.histRenderEnd → s.histBatch[h]? = s.cache[h]?
  slot : s.histRenderIdx < s.histRenderEnd → s.histBatchSlot = some s.activeContact

/-- What holds between the operations. -/
structure WindowInv (s : Chat) : Prop where
  start_nonneg : 0 ≤ s.windowStart
  start_le : s.windowStart ≤ s.windowEnd
  end_le : s.windowEnd ≤ s.cacheCount
  size : s.windowEnd - s.windowStart ≤ bubbleWindowSize
  shows : s.bubbles.Shows s.activeContact s.windowShown
  cached : s.cache ≠ [] →
    s.screen = true ∧ s.cacheAllocated = true ∧ s.cacheSlot = some s.activeContact
  rendering : s.histRendering = true → s.screen = true → s.Rendering
  screenless : s.screen = false → s.bubbles.children = []

variable {s : Chat}

/-- The invariant gives the statement about the window. -/
theorem WindowInv.exact (h : s.WindowInv) : s.WindowExact :=
  ⟨h.start_nonneg, h.start_le, h.end_le, h.size, h.shows.bubbles⟩

/-- Without a cache the window is empty, and so is what it shows. -/
theorem WindowInv.of_cache_nil (h : s.WindowInv) (hcache : s.cache = []) :
    s.windowStart = 0 ∧ s.windowEnd = 0 ∧ s.windowShown = [] := by
  have hend := h.end_le
  have hle := h.start_le
  have hstart := h.start_nonneg
  rw [cacheCount, hcache, List.length_nil] at hend
  refine ⟨by omega, by omega, ?_⟩
  rw [windowShown, hcache, slice_nil, List.map_nil]

/-- The window is drawn at most to its end. -/
theorem WindowInv.drawn_le (h : s.WindowInv) (hscreen : s.screen = true) :
    s.windowStart ≤ s.windowDrawn ∧ s.windowDrawn ≤ s.windowEnd := by
  rw [windowDrawn]
  by_cases hrendering : s.histRendering = true
  · have hr := h.rendering hrendering hscreen
    rw [if_pos hrendering, ← hr.end_eq]
    exact ⟨hr.start_le, hr.idx_le⟩
  · rw [if_neg hrendering]
    exact ⟨h.start_le, Int.le_refl _⟩

/-- As many bubbles are shown as the drawn window has messages. -/
theorem WindowInv.windowShown_length (h : s.WindowInv) (hscreen : s.screen = true) :
    (s.windowShown.length : ℤ) = s.windowDrawn - s.windowStart := by
  obtain ⟨hlow, hhigh⟩ := h.drawn_le hscreen
  have hend := h.end_le
  have hstart := h.start_nonneg
  rw [cacheCount] at hend
  rw [windowShown, List.length_map, slice_length (by omega)]
  omega

/-! ### The operations that clear bubbles -/

/-- Nothing is shown from an empty cache. -/
theorem windowShown_of_cache_nil (hcache : s.cache = []) : s.windowShown = [] := by
  rw [windowShown, hcache, slice_nil, List.map_nil]

/-- Without cache, window and bubbles the invariant holds. -/
theorem windowInv_of_empty (hcache : s.cache = []) (hstart : s.windowStart = 0)
    (hend : s.windowEnd = 0) (hchildren : s.bubbles.children = [])
    (hcount : s.bubbles.bubbleCount = 0)
    (hrendering : s.histRendering = true → s.screen = true →
      s.histRenderIdx = 0 ∧ s.histRenderEnd = 0) : s.WindowInv where
  start_nonneg := Int.le_of_eq hstart.symm
  start_le := Int.le_of_eq (hstart.trans hend.symm)
  end_le := by rw [hend, cacheCount, hcache]; exact Int.le_refl 0
  size := by rw [hstart, hend]; decide
  shows := by
    refine ⟨?_, by rw [hcount, hchildren]; rfl⟩
    rw [windowShown_of_cache_nil hcache, ChatBubbles.bubblesOf, hchildren]
    rfl
  cached := fun hne => absurd hcache hne
  rendering := by
    intro hyes hscreen
    obtain ⟨hidx, hstop⟩ := hrendering hyes hscreen
    refine ⟨by omega, by omega, by omega, fun hne => absurd hcache hne,
      fun h _ hh => ?_, fun hlt => ?_⟩
    · rw [hstop] at hh
      omega
    · rw [hidx, hstop] at hlt
      exact absurd hlt (Int.lt_irrefl 0)
  screenless := fun _ => hchildren

/-- Without a screen the cache is empty. -/
theorem WindowInv.cache_nil (h : s.WindowInv) (hscreen : s.screen = false) : s.cache = [] := by
  by_contra hne
  rw [(h.cached hne).1] at hscreen
  cases hscreen

/-- Opening the screen keeps the invariant. -/
theorem WindowInv.create (h : s.WindowInv) (hop : s.screen = false ∧ s.histRendering = true →
      s.histRenderIdx = 0 ∧ s.histRenderEnd = 0) : s.uiChatCreate.WindowInv := by
  cases hscreen : s.screen with
  | true =>
    have hsame : s.uiChatCreate = s := by
      rw [uiChatCreate, ← hscreen]
    rw [hsame]
    exact h
  | false =>
    have hchildren := h.screenless hscreen
    obtain ⟨hstart, hend, -⟩ := h.of_cache_nil (h.cache_nil hscreen)
    refine windowInv_of_empty (h.cache_nil hscreen) hstart hend hchildren ?_ fun hyes _ => ?_
    · change s.bubbles.bubbleCount = 0
      rw [h.shows.count, hchildren]
      rfl
    · exact hop ⟨hscreen, hyes⟩

/-- Closing it keeps the invariant. -/
theorem WindowInv.cleanup (h : s.WindowInv) : s.uiChatCleanup.WindowInv := by
  rw [uiChatCleanup]
  by_cases hscreen : s.screen = true
  · rw [if_pos hscreen]
    exact windowInv_of_empty rfl rfl rfl rfl rfl nofun
  · rw [if_neg hscreen]
    exact h

/-- A switch to another contact keeps the invariant. -/
theorem WindowInv.switchContact (h : s.WindowInv) {contactIdx : ℕ}
    (hop : s.screen = true → s.windowEnd = 0) : (s.uiChatSwitchContact contactIdx).WindowInv := by
  have hstart := h.start_nonneg
  have hle := h.start_le
  rw [uiChatSwitchContact]
  cases hscreen : s.screen with
  | true =>
    have hend := hop hscreen
    have hstart : s.windowStart = 0 := by omega
    have hcache : (if s.cacheAllocated then [] else s.cache) = [] := by
      by_cases hcached : s.cache = []
      · rw [hcached, ite_self]
      · rw [if_pos (h.cached hcached).2.1]
    rw [if_pos rfl]
    refine windowInv_of_empty hcache hstart hend rfl rfl fun hrendering _ => ?_
    obtain ⟨hidx, hidx', hstop, -⟩ := h.rendering hrendering hscreen
    have hzero : s.histRenderIdx = 0 ∧ s.histRenderEnd = 0 := by omega
    exact hzero
  | false =>
    have hcache := h.cache_nil hscreen
    have hchildren := h.screenless hscreen
    obtain ⟨hstart, hend, -⟩ := h.of_cache_nil hcache
    rw [if_neg Bool.false_ne_true]
    refine windowInv_of_empty hcache hstart hend hchildren ?_ fun _ hyes => ?_
    · rw [h.shows.count, hchildren]
      rfl
    · exact absurd hyes Bool.false_ne_true

/-- The same chat with other bubbles. -/
def withBubbles (s : Chat) (bubbles : ChatBubbles) : Chat := { s with bubbles := bubbles }

/-- Bubbles that show the window take the place of the others. -/
theorem WindowInv.of_shows (h : s.WindowInv) (hscreen : s.screen = true) {bubbles : ChatBubbles}
    (hshows : bubbles.Shows s.activeContact s.windowShown) :
    (s.withBubbles bubbles).WindowInv where
  start_nonneg := h.start_nonneg
  start_le := h.start_le
  end_le := h.end_le
  size := h.size
  shows := hshows
  cached := h.cached
  rendering := by
    intro hrendering hscreen
    obtain ⟨hstart, hidx, hend, hsetup, hbatch, hslot⟩ := h.rendering hrendering hscreen
    exact ⟨hstart, hidx, hend, hsetup, hbatch, hslot⟩
  screenless := fun hno => absurd (hscreen.symm.trans hno) nofun

/-- Clearing a chat keeps the invariant. -/
theorem WindowInv.clearContact (h : s.WindowInv) {contactIdx : Option ℕ}
    (hop : s.screen = true → s.windowDrawn = s.windowStart ∨
      (contactIdx ≠ none ∧ contactIdx ≠ some s.activeContact)) :
    (s.uiChatClearContact contactIdx).WindowInv := by
  unfold uiChatClearContact
  by_cases hscreen : s.screen = true
  · rw [if_pos hscreen]
    have hfilter : ∀ p : Bubble → Bool, (s.bubbles.children.filter p).length ≤
        s.bubbles.children.length := fun p => List.length_filter_le _ _
    refine h.of_shows hscreen ?_
    rcases hop hscreen with hempty | ⟨hsome, hother⟩
    · have hlen := h.windowShown_length hscreen
      have hshown : s.windowShown = [] := List.length_eq_zero_iff.mp (by omega)
      cases contactIdx with
      | none =>
        rw [hshown]
        exact .clean _ _
      | some contact =>
        have hnone : s.bubbles.children.filter (Bubble.isOf (some s.activeContact)) = [] := by
          have hmap := h.shows.bubbles
          rw [hshown] at hmap
          exact List.map_eq_nil_iff.mp hmap
        refine h.shows.keep (hfilter _) ?_
        rw [List.filter_comm, hnone, hshown]
        rfl
    · obtain ⟨contact, rfl⟩ := Option.ne_none_iff_exists'.mp hsome
      refine h.shows.keep (hfilter _) ?_
      rw [← h.shows.bubbles, ChatBubbles.bubblesOf, List.filter_filter]
      congr 1
      apply List.filter_congr
      intro b _
      by_cases hb : b.isOf (some s.activeContact) = true
      · have hno : b.isOf (some contact) = false := by
          rw [Bool.eq_false_iff]
          intro hyes
          rw [Bubble.isOf_some] at hb hyes
          exact hother (hyes.symm.trans hb)
        rw [hb, hno]
        rfl
      · rw [Bool.not_eq_true] at hb
        rw [hb, Bool.false_and]
  · rw [if_neg hscreen]
    exact h

/-! ### Loading and rendering a history -/

/-- The number of bubbles that memory allows. -/
theorem maxSafe_bounds (freeSize : ℕ) :
    1 ≤ maxSafe freeSize ∧ maxSafe freeSize ≤ bubbleWindowSize := by
  unfold maxSafe bubbleWindowSize
  dsimp only
  split_ifs <;> omega

/-- A history of the active contact is cached, with its last messages as the window. -/
theorem WindowInv.historyBatch (h : s.WindowInv) {loaded : List CachedMessage} {slot : ℕ}
    {alloc : Bool} {freeSize : ℕ} (hop : s.screen = true ∧ loaded ≠ [] →
      slot = s.activeContact ∨ (s.cacheAllocated = false ∧ alloc = false))
    (hrest : s.screen = true ∧ s.histRendering = true ∧ s.histRenderIdx < s.histRenderEnd →
      loaded ≠ []) : (s.historyBatchEvent loaded slot alloc freeSize).WindowInv := by
  unfold historyBatchEvent
  dsimp only
  by_cases hbatch : loaded.take 20 = []
  · rw [if_pos hbatch]
    refine ⟨h.start_nonneg, h.start_le, h.end_le, h.size, h.shows, h.cached,
      fun hrendering hscreen => ?_, h.screenless⟩
    have hempty : loaded = [] := by simpa [List.take_eq_nil_iff] using hbatch
    have hdone : ¬ s.histRenderIdx < s.histRenderEnd := fun hlt =>
      hrest ⟨hscreen, hrendering, hlt⟩ hempty
    obtain ⟨hstart, hidx, hend, hsetup, -, -⟩ := h.rendering hrendering hscreen
    refine ⟨hstart, hidx, hend, hsetup, fun i hi hi' => ?_, fun hlt => absurd hlt hdone⟩
    exact absurd (Int.lt_of_le_of_lt hi hi') hdone
  · rw [if_neg hbatch]
    unfold uiChatCacheHistory
    by_cases hscreen : s.screen = false
    · obtain ⟨hstart, hend, -⟩ := h.of_cache_nil (h.cache_nil hscreen)
      have hchildren := h.screenless hscreen
      rw [if_pos hscreen]
      refine windowInv_of_empty (h.cache_nil hscreen) hstart hend hchildren ?_ fun _ hyes => ?_
      · rw [h.shows.count, hchildren]
        rfl
      · exact absurd (hscreen.symm.trans hyes) Bool.false_ne_true
    · have hloaded : loaded ≠ [] := fun hnil => hbatch (by rw [hnil, List.take_nil])
      rw [Bool.not_eq_false] at hscreen
      rw [if_neg (by rw [hscreen]; exact nofun)]
      by_cases hfail : s.cacheAllocated = false ∧ alloc = false
      · have hcache : s.cache = [] := by
          by_contra hne
          rw [(h.cached hne).2.1] at hfail
          exact absurd hfail.1 nofun
        obtain ⟨hstart, hend, -⟩ := h.of_cache_nil hcache
        rw [if_pos hfail]
        exact windowInv_of_empty hcache hstart hend rfl rfl fun _ _ => ⟨hstart, hend⟩
      · obtain rfl := (hop ⟨hscreen, hloaded⟩).resolve_right hfail
        have hlen : (loaded.take 20).length ≤ 20 := List.length_take_le 20 loaded
        have hsmall : (loaded.take 20).length - msgCacheSize = 0 := by
          rw [msgCacheSize]
          omega
        obtain ⟨hpos, hmax⟩ := maxSafe_bounds freeSize
        have hwindow : max 0 (((loaded.take 20).length : ℤ) - maxSafe freeSize) ≤
            (loaded.take 20).length ∧ ((loaded.take 20).length : ℤ) -
              max 0 (((loaded.take 20).length : ℤ) - maxSafe freeSize) ≤ bubbleWindowSize := by
          unfold bubbleWindowSize at hmax ⊢
          omega
        rw [if_neg hfail, hsmall, List.drop_zero]
        refine ⟨Int.le_max_left _ _, hwindow.1, Int.le_refl _, hwindow.2, ?_,
          fun _ => ⟨hscreen, rfl, rfl⟩, fun _ _ => ?_, fun hno => ?_⟩
        · -- nothing is drawn yet
          change ChatBubbles.Shows _ _ ((slice _ _ _).map _)
          rw [windowDrawn, if_pos rfl, slice_self, List.map_nil]
          exact .clean _ _
        · exact ⟨Int.le_refl _, hwindow.1, rfl, fun _ => rfl, fun _ _ _ => rfl, fun _ => rfl⟩
        · exact absurd (hscreen.symm.trans hno) nofun

/-- Messages of the batch are appended, if no creation is refused. -/
theorem renderBatch_shows {rooms : ℤ → Bool} (n i : ℕ) {s : Chat} (hscreen : s.screen = true)
    (hslot : 0 < n → s.histBatchSlot = some s.activeContact)
    (hlen : 0 < n → i + n ≤ s.histBatch.length) (hrooms : ∀ k < n, rooms (i + k) = true)
    {shown : List (List UInt8 × Bool)} (hshows : s.bubbles.Shows s.activeContact shown) :
    ∃ bubbles, s.renderBatch rooms n i = s.withBubbles bubbles ∧
      bubbles.Shows s.activeContact
        (shown ++ (slice s.histBatch i (i + n)).map CachedMessage.shown) := by
  induction n generalizing i s shown with
  | zero =>
    rw [renderBatch, Nat.add_zero, slice_self, List.map_nil, List.append_nil]
    exact ⟨s.bubbles, rfl, hshows⟩
  | succ n ih =>
    have hlen : i + (n + 1) ≤ s.histBatch.length := hlen (Nat.succ_pos n)
    have hslot := hslot (Nat.succ_pos n)
    obtain ⟨m, hm⟩ : ∃ m, s.histBatch[i]? = some m := ⟨_, List.getElem?_eq_getElem (by omega)⟩
    have hroom : rooms i = true := by simpa using hrooms 0 (Nat.succ_pos n)
    have hcreate := hshows.create m.text m.isSent m.deliveryStatus.toNat none
    rw [← hslot] at hcreate
    obtain ⟨next, hnext⟩ : ∃ next, next = s.bubbles.createBubbleInternal m.text m.isSent
      s.histBatchSlot m.deliveryStatus.toNat none true := ⟨_, rfl⟩
    rw [← hnext] at hcreate
    have hadd : s.uiChatAddHistoryMessage m (rooms i) = s.withBubbles next := by
      rw [uiChatAddHistoryMessage, if_pos hscreen, hroom, hnext]
      rfl
    have hrooms' : ∀ k < n, rooms ((i + 1 : ℕ) + k) = true := by
      intro k hk
      have hroom := hrooms (k + 1) (by omega)
      rwa [show (i : ℤ) + ((k + 1 : ℕ) : ℤ) = ((i + 1 : ℕ) : ℤ) + k by omega] at hroom
    rw [renderBatch, Int.toNat_natCast, hm]
    dsimp only
    rw [hadd, show (i : ℤ) + 1 = ((i + 1 : ℕ) : ℤ) from rfl]
    obtain ⟨bubbles, heq, hbubbles⟩ := ih (i + 1) (s := s.withBubbles next) hscreen
      (fun _ => hslot) (fun _ => by change _ ≤ s.histBatch.length; omega) hrooms' hcreate
    refine ⟨bubbles, heq, ?_⟩
    rw [← slice_append_slice s.histBatch (Nat.le_succ i) (show i + 1 ≤ i + (n + 1) by omega),
      slice_succ hm, List.map_append, ← List.append_assoc, show i + (n + 1) = i + 1 + n by omega]
    exact hbubbles

/-- Without a screen nothing is rendered. -/
theorem renderBatch_of_screen_false {rooms : ℤ → Bool} (n : ℕ) (i : ℤ)
    (hscreen : s.screen = false) : s.renderBatch rooms n i = s := by
  induction n generalizing i with
  | zero => rfl
  | succ n ih =>
    rw [renderBatch]
    cases s.histBatch[i.toNat]? with
    | none => exact ih _
    | some m =>
      have hsame : s.uiChatAddHistoryMessage m (rooms i) = s :=
        if_neg (by rw [hscreen]; exact nofun)
      dsimp only
      rw [hsame, ih]

/-- A chunk of the window is rendered, if no creation is refused. -/
theorem WindowInv.renderTick (h : s.WindowInv) {rooms : ℤ → Bool}
    (hop : s.screen = true ∧ s.histRendering = true →
      ∀ k < (min (s.histRenderIdx + historyChunkSize) s.histRenderEnd - s.histRenderIdx).toNat,
        rooms (s.histRenderIdx + k) = true) : (s.renderTick rooms).WindowInv := by
  unfold Chat.renderTick
  by_cases hyes : s.histRendering = true ∧ s.histBatch ≠ []
  · rw [if_pos hyes]
    dsimp only
    obtain ⟨stop, hstop⟩ : ∃ stop, stop = min (s.histRenderIdx + historyChunkSize)
      s.histRenderEnd := ⟨_, rfl⟩
    rw [← hstop]
    cases hscreen : s.screen with
    | false =>
      have hcache := h.cache_nil hscreen
      have hchildren := h.screenless hscreen
      obtain ⟨hstart, hend, -⟩ := h.of_cache_nil hcache
      have hcount : s.bubbles.bubbleCount = 0 := by
        rw [h.shows.count, hchildren]
        rfl
      rw [renderBatch_of_screen_false _ _ hscreen]
      split_ifs
      · exact windowInv_of_empty hcache hstart hend hchildren hcount nofun
      · refine windowInv_of_empty hcache hstart hend hchildren hcount fun _ hyes => ?_
        exact absurd (hscreen.symm.trans hyes) nofun
    | true =>
      obtain ⟨hstart, hidx, hend, hsetup, hbatch, hslot⟩ := h.rendering hyes.1 hscreen
      have hnonneg := h.start_nonneg
      have hle := h.end_le
      rw [cacheCount] at hle
      rw [historyChunkSize] at hstop
      obtain ⟨i, hi⟩ := Int.eq_ofNat_of_zero_le (show 0 ≤ s.histRenderIdx by omega)
      obtain ⟨n, hn⟩ := Int.eq_ofNat_of_zero_le (show 0 ≤ stop - s.histRenderIdx by omega)
      have hrooms := hop ⟨hscreen, hyes.1⟩
      rw [historyChunkSize, ← hstop, hn, Int.toNat_natCast, hi] at hrooms
      -- the batch still has the messages of the cache
      have hinbatch : 0 < n → i + n ≤ s.histBatch.length := by
        intro hpos
        have hlast := hbatch (i + n - 1) (by omega) (by omega)
        rw [List.getElem?_eq_getElem (l := s.cache) (by omega)] at hlast
        have hlt := (List.getElem?_eq_some_iff.mp hlast).1
        omega
      have hsame : slice s.histBatch i (i + n) = slice s.cache i (i + n) :=
        slice_congr fun k hk hk' => hbatch k (by omega) (by omega)
      obtain ⟨bubbles, heq, hshows⟩ := renderBatch_shows n i hscreen (fun _ => hslot (by omega))
        hinbatch hrooms h.shows
      have hshown : s.windowShown ++ (slice s.histBatch i (i + n)).map CachedMessage.shown =
          (slice s.cache s.windowStart.toNat stop.toNat).map CachedMessage.shown := by
        rw [windowShown, windowDrawn, if_pos hyes.1, hsame, ← List.map_append, hi,
          Int.toNat_natCast, slice_append_slice _ (by omega) (Nat.le_add_right i n),
          show stop.toNat = i + n by omega]
      rw [hshown] at hshows
      rw [hn, Int.toNat_natCast, hi, heq]
      by_cases hdone : (s.withBubbles bubbles).histRenderEnd ≤ stop
      · have hstop' : s.windowEnd = stop := by
          change s.histRenderEnd ≤ stop at hdone
          omega
        rw [if_pos hdone]
        refine ⟨hnonneg, h.start_le, h.end_le, h.size, ?_, h.cached, nofun, ?_⟩
        · change bubbles.Shows s.activeContact (List.map _ (slice _ _ s.windowEnd.toNat))
          rwa [hstop']
        · exact fun hno => absurd (hscreen.symm.trans hno) nofun
      · have hlt : ¬ s.histRenderEnd ≤ stop := hdone
        rw [if_neg hdone]
        refine ⟨hnonneg, h.start_le, h.end_le, h.size, ?_, h.cached, fun _ _ => ?_, ?_⟩
        · change bubbles.Shows s.activeContact (List.map _ (slice _ _ (windowDrawn _).toNat))
          rw [windowDrawn, if_pos (show (s.withBubbles bubbles).histRendering = true from hyes.1)]
          exact hshows
        · refine ⟨?_, ?_, hend, hsetup, fun k hk hk' => hbatch k ?_ hk', fun _ => hslot (by omega)⟩
          · change s.windowStart ≤ stop
            omega
          · change stop ≤ s.histRenderEnd
            omega
          · change stop ≤ (k : ℤ) at hk
            omega
        · exact fun hno => absurd (hscreen.symm.trans hno) nofun
  · rw [if_neg hyes]
    exact h

/-! ### Scrolling -/

/-- A message of the cache is rendered at either end, if its creation is not refused. -/
theorem renderCacheBubble_shows {rooms : ℤ → Bool} {i : ℕ} {m : CachedMessage}
    (hm : s.cache[i]? = some m) (hscreen : s.screen = true)
    (hslot : s.cacheSlot = some s.activeContact) (hroom : rooms i = true)
    {shown : List (List UInt8 × Bool)} (hshows : s.bubbles.Shows s.activeContact shown)
    (atTop : Bool) :
    ∃ bubbles, s.renderCacheBubble rooms i atTop = s.withBubbles bubbles ∧
      bubbles.Shows s.activeContact (if atTop then m.shown :: shown else shown ++ [m.shown]) := by
  have hlt := (List.getElem?_eq_some_iff.mp hm).1
  have hcounted : (s.bubbles.chatBubbleAddHistory m.text m.isSent s.cacheSlot m.deliveryStatus
      true).bubbleCount ≠ s.bubbles.bubbleCount := Nat.succ_ne_self _
  have hinside : ¬ ((i : ℤ) < 0 ∨ s.cacheCount ≤ i ∨ s.screen = false) := by
    rw [cacheCount, hscreen]
    rintro (hneg | hle | hno)
    · omega
    · omega
    · cases hno
  unfold renderCacheBubble
  rw [if_neg hinside, Int.toNat_natCast, hm, hroom]
  simp only [hcounted, false_and, if_false]
  refine ⟨_, rfl, ?_⟩
  rw [hslot]
  cases atTop with
  | false => exact hshows.create m.text m.isSent m.deliveryStatus.toNat none
  | true => exact hshows.create_lastToFront m.text m.isSent m.deliveryStatus.toNat none

/-- Older messages are inserted above the others, if no creation is refused. -/
theorem renderOlder_shows {rooms : ℤ → Bool} (n i : ℕ) {s : Chat} (hscreen : s.screen = true)
    (hslot : s.cacheSlot = some s.activeContact) (hn : n ≤ i) (hlen : i ≤ s.cache.length)
    (hrooms : ∀ k < n, rooms ((i : ℤ) - 1 - k) = true) {shown : List (List UInt8 × Bool)}
    (hshows : s.bubbles.Shows s.activeContact shown) :
    ∃ bubbles, s.renderOlder rooms n ((i : ℤ) - 1) = s.withBubbles bubbles ∧
      bubbles.Shows s.activeContact
        ((slice s.cache (i - n) i).map CachedMessage.shown ++ shown) := by
  induction n generalizing i s shown with
  | zero =>
    rw [renderOlder, Nat.sub_zero, slice_self, List.map_nil, List.nil_append]
    exact ⟨s.bubbles, rfl, hshows⟩
  | succ n ih =>
    obtain ⟨j, rfl⟩ : ∃ j, i = j + 1 := ⟨i - 1, by omega⟩
    obtain ⟨m, hm⟩ : ∃ m, s.cache[j]? = some m := ⟨_, List.getElem?_eq_getElem (by omega)⟩
    have hidx : ((j + 1 : ℕ) : ℤ) - 1 = j := by omega
    have hroom : rooms j = true := by
      have hroom := hrooms 0 (Nat.succ_pos n)
      rwa [hidx, Int.natCast_zero, Int.sub_zero] at hroom
    have hrooms' : ∀ k < n, rooms ((j : ℤ) - 1 - k) = true := by
      intro k hk
      have hroom := hrooms (k + 1) (by omega)
      rwa [show ((j + 1 : ℕ) : ℤ) - 1 - ((k + 1 : ℕ) : ℤ) = (j : ℤ) - 1 - k by omega] at hroom
    obtain ⟨next, hnext, hcreate⟩ := renderCacheBubble_shows hm hscreen hslot hroom hshows true
    rw [renderOlder, hidx, hnext]
    obtain ⟨bubbles, heq, hbubbles⟩ := ih j (s := s.withBubbles next) hscreen hslot (by omega)
      (by change j ≤ s.cache.length; omega) hrooms' hcreate
    refine ⟨bubbles, heq, ?_⟩
    rw [← slice_append_slice s.cache (show j + 1 - (n + 1) ≤ j by omega) (Nat.le_succ j),
      slice_succ hm, List.map_append, List.append_assoc, show j + 1 - (n + 1) = j - n by omega]
    exact hbubbles

/-- Newer messages are appended, if no creation is refused; then the loop ends where the
window is to end. -/
theorem renderNewer_shows {rooms : ℤ → Bool} (toAdd : ℤ) (n steps i : ℕ) {s : Chat}
    (hscreen : s.screen = true) (hslot : s.cacheSlot = some s.activeContact) (hn : n ≤ steps)
    (hend : (i : ℤ) + n = s.windowEnd + toAdd) (hlen : i + n ≤ s.cache.length)
    (hrooms : ∀ k < n, rooms ((i : ℤ) + k) = true) {shown : List (List UInt8 × Bool)}
    (hshows : s.bubbles.Shows s.activeContact shown) :
    ∃ bubbles, s.renderNewer rooms toAdd steps i = s.withBubbles bubbles ∧
      bubbles.Shows s.activeContact
        (shown ++ (slice s.cache i (i + n)).map CachedMessage.shown) := by
  induction n generalizing steps i s shown with
  | zero =>
    have hstop : s.renderNewer rooms toAdd steps i = s := by
      cases steps with
      | zero => rfl
      | succ steps => exact if_neg (by omega)
    rw [hstop, Nat.add_zero, slice_self, List.map_nil, List.append_nil]
    exact ⟨s.bubbles, rfl, hshows⟩
  | succ n ih =>
    obtain ⟨steps, rfl⟩ := Nat.exists_eq_add_of_le' (show 1 ≤ steps by omega)
    obtain ⟨m, hm⟩ : ∃ m, s.cache[i]? = some m := ⟨_, List.getElem?_eq_getElem (by omega)⟩
    have hroom : rooms i = true := by simpa using hrooms 0 (Nat.succ_pos n)
    have hrooms' : ∀ k < n, rooms (((i + 1 : ℕ) : ℤ) + k) = true := by
      intro k hk
      have hroom := hrooms (k + 1) (by omega)
      rwa [show (i : ℤ) + ((k + 1 : ℕ) : ℤ) = ((i + 1 : ℕ) : ℤ) + k by omega] at hroom
    obtain ⟨next, hnext, hcreate⟩ := renderCacheBubble_shows hm hscreen hslot hroom hshows false
    rw [renderNewer, if_pos (by omega), hnext, show (i : ℤ) + 1 = ((i + 1 : ℕ) : ℤ) from rfl]
    obtain ⟨bubbles, heq, hbubbles⟩ := ih steps (i + 1) (s := s.withBubbles next) hscreen hslot
      (by omega) (by change _ = s.windowEnd + toAdd; omega)
      (by change _ ≤ s.cache.length; omega) hrooms' hcreate
    refine ⟨bubbles, heq, ?_⟩
    rw [← slice_append_slice s.cache (Nat.le_succ i) (show i + 1 ≤ i + (n + 1) by omega),
      slice_succ hm, List.map_append, ← List.append_assoc, show i + (n + 1) = i + 1 + n by omega]
    exact hbubbles

/-- When scrolling is allowed the cache is that of the active contact and is not being
rendered. -/
theorem WindowInv.of_scrollAllowed (h : s.WindowInv) (hallowed : s.scrollAllowed = true) :
    s.screen = true ∧ s.cacheSlot = some s.activeContact ∧ s.histRendering = false := by
  simp only [scrollAllowed, Bool.and_eq_true, Bool.not_eq_true',
    List.isEmpty_eq_false_iff] at hallowed
  obtain ⟨⟨⟨⟨hscreen, -⟩, hcache⟩, hsetup⟩, -⟩ := hallowed
  refine ⟨hscreen, (h.cached hcache).2.2, ?_⟩
  by_contra hrendering
  rw [Bool.not_eq_false] at hrendering
  rw [(h.rendering hrendering hscreen).setup hcache] at hsetup
  cases hsetup

/-- The messages shown when nothing is being rendered. -/
theorem windowShown_of_idle (hidle : s.histRendering = false) :
    s.windowShown =
      (slice s.cache s.windowStart.toNat s.windowEnd.toNat).map CachedMessage.shown := by
  rw [windowShown, windowDrawn, if_neg (by rw [hidle]; exact nofun)]

/-- An idle window that the bubbles show keeps the invariant. -/
theorem windowInv_of_idle (hscreen : s.screen = true) (hidle : s.histRendering = false)
    (hstart : 0 ≤ s.windowStart) (hle : s.windowStart ≤ s.windowEnd)
    (hend : s.windowEnd ≤ s.cache.length) (hsize : s.windowEnd - s.windowStart ≤ 5)
    (hcached : s.cache ≠ [] → s.cacheAllocated = true ∧ s.cacheSlot = some s.activeContact)
    (hshows : s.bubbles.Shows s.activeContact
      ((slice s.cache s.windowStart.toNat s.windowEnd.toNat).map CachedMessage.shown)) :
    s.WindowInv where
  start_nonneg := hstart
  start_le := hle
  end_le := hend
  size := hsize
  shows := by rwa [windowShown_of_idle hidle]
  cached := fun hne => ⟨hscreen, hcached hne⟩
  rendering := fun hyes => absurd (hidle.symm.trans hyes) nofun
  screenless := fun hno => absurd (hscreen.symm.trans hno) nofun

/-- `load_older_messages` moves the window up. -/
theorem WindowInv.loadOlder (h : s.WindowInv) {rooms : ℤ → Bool} (hscreen : s.screen = true)
    (hslot : s.cacheSlot = some s.activeContact) (hidle : s.histRendering = false)
    (hrooms : ∀ k < s.olderCount.toNat, rooms (s.windowStart - 1 - k) = true) :
    (s.loadOlderMessages rooms).WindowInv := by
  have hnonneg := h.start_nonneg
  have hle := h.start_le
  have hend : s.windowEnd ≤ s.cache.length := h.end_le
  have hsize : s.windowEnd - s.windowStart ≤ 5 := h.size
  have hshows := h.shows
  rw [windowShown_of_idle hidle] at hshows
  have hcached : s.cache ≠ [] → s.cacheAllocated = true ∧ s.cacheSlot = some s.activeContact :=
    fun hne => (h.cached hne).2
  unfold loadOlderMessages
  by_cases hstart : s.windowStart ≤ 0
  · rw [if_pos hstart]
    exact windowInv_of_idle hscreen hidle hnonneg hle hend hsize hcached hshows
  · rw [if_neg hstart]
    dsimp only
    have hcount : s.olderCount = min 2 s.windowStart := rfl
    have hwindow : bubbleWindowSize = 5 := rfl
    generalize s.olderCount = toAdd at hrooms hcount ⊢
    generalize hneed : s.windowEnd - s.windowStart + toAdd - bubbleWindowSize = need
    -- the newest bubbles go
    obtain ⟨hremoved, hnumber⟩ := hshows.removeNewest need
    rw [← hslot, List.length_map, slice_length (by omega)] at hnumber
    rw [← hslot, List.rdrop, ← List.map_take, List.length_map, ← List.rdrop,
      slice_rdrop (by omega) (by omega)] at hremoved
    generalize s.bubbles.chatBubbleRemoveNewest need s.cacheSlot = bubbles at hremoved hnumber ⊢
    generalize hnewEnd : s.windowEnd - (s.bubbles.removed bubbles : ℤ) = newEnd
    -- older ones come
    obtain ⟨i, hi⟩ := Int.eq_ofNat_of_zero_le hnonneg
    obtain ⟨drawn, heq, hdrawn⟩ := renderOlder_shows toAdd.toNat i
      (s := { s with bubbles := bubbles, windowEnd := newEnd }) hscreen hslot (by omega)
      (by change i ≤ s.cache.length; omega) (by rwa [← hi]) hremoved
    rw [← hi] at heq
    rw [heq]
    refine windowInv_of_idle hscreen hidle ?_ ?_ ?_ ?_ hcached ?_
    · change 0 ≤ s.windowStart - toAdd
      omega
    · change s.windowStart - toAdd ≤ newEnd
      omega
    · change newEnd ≤ s.cache.length
      omega
    · change newEnd - (s.windowStart - toAdd) ≤ 5
      omega
    · change drawn.Shows s.activeContact
        (List.map _ (slice s.cache (s.windowStart - toAdd).toNat newEnd.toNat))
      change drawn.Shows s.activeContact
        (List.map _ (slice s.cache (i - toAdd.toNat) i) ++ _) at hdrawn
      rwa [← List.map_append, hi, Int.toNat_natCast, slice_append_slice _ (by omega) (by omega),
        show s.windowEnd.toNat - need.toNat = newEnd.toNat by omega,
        show i - toAdd.toNat = ((i : ℤ) - toAdd).toNat by omega, ← hi] at hdrawn

/-- `load_newer_messages` moves the window down. -/
theorem WindowInv.loadNewer (h : s.WindowInv) {rooms : ℤ → Bool} (hscreen : s.screen = true)
    (hslot : s.cacheSlot = some s.activeContact) (hidle : s.histRendering = false)
    (hrooms : ∀ k < s.newerCount.toNat, rooms (s.windowEnd + k) = true) :
    (s.loadNewerMessages rooms).WindowInv := by
  have hnonneg := h.start_nonneg
  have hle := h.start_le
  have hend : s.windowEnd ≤ s.cache.length := h.end_le
  have hsize : s.windowEnd - s.windowStart ≤ 5 := h.size
  have hshows := h.shows
  rw [windowShown_of_idle hidle] at hshows
  have hcached : s.cache ≠ [] → s.cacheAllocated = true ∧ s.cacheSlot = some s.activeContact :=
    fun hne => (h.cached hne).2
  have hcache : s.cacheCount = s.cache.length := rfl
  unfold loadNewerMessages
  by_cases hstop : s.cacheCount ≤ s.windowEnd
  · rw [if_pos hstop]
    exact windowInv_of_idle hscreen hidle hnonneg hle hend hsize hcached hshows
  · rw [if_neg hstop]
    dsimp only
    have hcount : s.newerCount = min 2 (s.cacheCount - s.windowEnd) := rfl
    have hwindow : bubbleWindowSize = 5 := rfl
    generalize s.newerCount = toAdd at hrooms hcount ⊢
    generalize hneed : s.windowEnd - s.windowStart + toAdd - bubbleWindowSize = need
    -- the oldest bubbles go
    obtain ⟨hremoved, hnumber⟩ := hshows.removeOldest need
    rw [← hslot, List.length_map, slice_length (by omega)] at hnumber
    rw [← hslot, ← List.map_drop, slice_drop] at hremoved
    generalize s.bubbles.chatBubbleRemoveOldest need s.cacheSlot = bubbles at hremoved hnumber ⊢
    generalize hnewStart : s.windowStart + (s.bubbles.removed bubbles : ℤ) = newStart
    -- newer ones come
    obtain ⟨i, hi⟩ := Int.eq_ofNat_of_zero_le (show 0 ≤ s.windowEnd by omega)
    obtain ⟨drawn, heq, hdrawn⟩ := renderNewer_shows toAdd toAdd.toNat
      (cacheCount { s with bubbles := bubbles, windowStart := newStart } - s.windowEnd +
        toAdd).toNat i
      (s := { s with bubbles := bubbles, windowStart := newStart }) hscreen hslot
      (by change _ ≤ (s.cacheCount - s.windowEnd + toAdd).toNat; omega)
      (by change (i : ℤ) + _ = s.windowEnd + toAdd; omega)
      (by change i + _ ≤ s.cache.length; omega) (by rwa [← hi]) hremoved
    rw [← hi] at heq
    rw [heq]
    refine windowInv_of_idle hscreen hidle ?_ ?_ ?_ ?_ hcached ?_
    · change 0 ≤ newStart
      omega
    · change newStart ≤ s.windowEnd + toAdd
      omega
    · change s.windowEnd + toAdd ≤ s.cache.length
      omega
    · change s.windowEnd + toAdd - newStart ≤ 5
      omega
    · change drawn.Shows s.activeContact
        (List.map _ (slice s.cache newStart.toNat (s.windowEnd + toAdd).toNat))
      change drawn.Shows s.activeContact
        (_ ++ List.map _ (slice s.cache i (i + toAdd.toNat))) at hdrawn
      rwa [← List.map_append, hi, Int.toNat_natCast, slice_append_slice _ (by omega) (by omega),
        show s.windowStart.toNat + need.toNat = newStart.toNat by omega,
        show i + toAdd.toNat = ((i : ℤ) + toAdd).toNat by omega, ← hi] at hdrawn

/-- A scroll event moves the window, if no creation is refused. -/
theorem WindowInv.scroll (h : s.WindowInv) {nearTop nearBottom : Bool} {rooms : ℤ → Bool}
    (hop : (s.scrollsOlder nearTop = true →
        ∀ k < s.olderCount.toNat, rooms (s.windowStart - 1 - k) = true) ∧
      (s.scrollsNewer nearTop nearBottom = true →
        ∀ k < s.newerCount.toNat, rooms (s.windowEnd + k) = true)) :
    (s.onScrollCb nearTop nearBottom rooms).WindowInv := by
  have hflags : ∀ older newer busy : Bool, WindowInv
      { s with loadingOlder := older, loadingNewer := newer, windowBusy := busy } := by
    intro older newer busy
    refine ⟨h.start_nonneg, h.start_le, h.end_le, h.size, h.shows, h.cached, fun hyes hscreen => ?_,
      h.screenless⟩
    obtain ⟨hstart, hidx, hend, hsetup, hbatch, hslot⟩ := h.rendering hyes hscreen
    exact ⟨hstart, hidx, hend, hsetup, hbatch, hslot⟩
  unfold onScrollCb
  by_cases holder : s.scrollsOlder nearTop = true
  · have hallowed : s.scrollAllowed = true := by
      simp only [scrollsOlder, Bool.and_eq_true] at holder
      exact holder.1.1.1
    obtain ⟨hscreen, hslot, hidle⟩ := h.of_scrollAllowed hallowed
    rw [if_pos holder]
    exact (hflags true s.loadingNewer true).loadOlder hscreen hslot hidle (hop.1 holder)
  · rw [if_neg holder]
    by_cases hnewer : s.scrollsNewer nearTop nearBottom = true
    · have hallowed : s.scrollAllowed = true := by
        simp only [scrollsNewer, Bool.and_eq_true] at hnewer
        exact hnewer.1.1.1.1
      obtain ⟨hscreen, hslot, hidle⟩ := h.of_scrollAllowed hallowed
      rw [if_pos hnewer]
      exact (hflags s.loadingOlder true true).loadNewer hscreen hslot hidle (hop.2 hnewer)
    · rw [if_neg hnewer]
      exact h

/-! ### Live messages -/

/-- What is cut off a cached text is not displayed. -/
theorem displayText_take (text : List UInt8) : displayText (text.take 4095) = displayText text := by
  unfold displayText historyDisplayText
  rw [List.length_take, List.take_take, Nat.min_eq_left (by decide : 512 ≤ 4095)]
  by_cases hlong : 512 < text.length
  · rw [if_pos (by omega), if_pos hlong]
  · rw [if_neg (by omega), if_neg hlong, List.take_of_length_le (by omega)]

/-- The eviction changes the bubbles and the start of the window only. -/
theorem evict_frame (s : Chat) :
    s.evict.screen = s.screen ∧ s.evict.caches = s.caches ∧ s.evict.cache = s.cache ∧
      s.evict.windowEnd = s.windowEnd ∧ s.evict.histRendering = s.histRendering ∧
      s.evict.activeContact = s.activeContact := by
  unfold Chat.evict
  by_cases hfull : bubbleWindowSize ≤ s.bubbles.bubbleCount
  · rw [if_pos hfull]
    exact ⟨rfl, rfl, rfl, rfl, rfl, rfl⟩
  · rw [if_neg hfull]
    exact ⟨rfl, rfl, rfl, rfl, rfl, rfl⟩

/-- Before a live message of the active contact the window makes room for it. -/
theorem WindowInv.evict (h : s.WindowInv) (hscreen : s.screen = true) :
    s.evict.WindowInv ∧
      (s.histRendering = false → s.windowEnd - s.evict.windowStart < bubbleWindowSize) := by
  have hlen := h.windowShown_length hscreen
  have hsize : s.windowEnd - s.windowStart ≤ 5 := h.size
  have hwindow : bubbleWindowSize = 5 := rfl
  have hdrawn := h.drawn_le hscreen
  have hidle : s.histRendering = false → s.windowDrawn = s.windowEnd := by
    intro hno
    rw [windowDrawn, if_neg (by rw [hno]; exact Bool.false_ne_true)]
  unfold Chat.evict
  by_cases hfull : bubbleWindowSize ≤ s.bubbles.bubbleCount
  · rw [if_pos hfull]
    dsimp only
    obtain ⟨hremoved, hnumber⟩ := h.shows.removeOldest 1
    generalize s.bubbles.chatBubbleRemoveOldest 1 (some s.activeContact) = bubbles
      at hremoved hnumber ⊢
    generalize hstart : s.windowStart + (s.bubbles.removed bubbles : ℤ) = start
    have hnonneg := h.start_nonneg
    have hone : (1 : ℤ).toNat = 1 := rfl
    rw [hone] at hremoved hnumber
    have hstart_le : start ≤ s.windowDrawn := by omega
    have hshown : s.windowShown.drop 1 =
        (slice s.cache start.toNat s.windowDrawn.toNat).map CachedMessage.shown := by
      rw [windowShown, ← List.map_drop, slice_drop]
      rcases Nat.eq_zero_or_pos s.windowShown.length with hzero | hpos
      · rw [slice, List.drop_eq_nil_of_le (by rw [List.length_take]; omega), slice,
          List.drop_eq_nil_of_le (by rw [List.length_take]; omega)]
      · rw [show start.toNat = s.windowStart.toNat + 1 by omega]
    rw [hshown] at hremoved
    refine ⟨⟨?_, ?_, h.end_le, ?_, hremoved, h.cached, fun hyes _ => ?_, fun hno => ?_⟩,
      fun hno => ?_⟩
    · change 0 ≤ start
      omega
    · change start ≤ s.windowEnd
      omega
    · change s.windowEnd - start ≤ 5
      omega
    · obtain ⟨-, hidx, hend, hsetup, hbatch, hslot⟩ := h.rendering hyes hscreen
      rw [windowDrawn, if_pos hyes] at hstart_le
      exact ⟨hstart_le, hidx, hend, hsetup, hbatch, hslot⟩
    · exact absurd (hno.symm.trans hscreen) Bool.false_ne_true
    · have := hidle hno
      omega
  · rw [if_neg hfull]
    refine ⟨h, fun hno => ?_⟩
    have hcount := h.shows.length_le
    have := hidle hno
    omega

/-- A live message that is cached at the end of the window gets its bubble there. -/
theorem WindowInv.addCached (h : s.WindowInv) (text : List UInt8) (isOutgoing : Bool)
    (message : Option ℕ) (hscreen : s.screen = true) (hcaches : s.caches s.activeContact = true)
    (hend : s.windowEnd = s.cacheCount) (hidle : s.histRendering = false)
    (hroom : s.windowEnd - s.windowStart < bubbleWindowSize) :
    ((s.withBubbles (s.bubbles.chatBubbleAddLive text isOutgoing (some s.activeContact) message
      true)).cacheLive text isOutgoing s.activeContact).WindowInv := by
  have hnonneg := h.start_nonneg
  have hle := h.start_le
  simp only [caches, Bool.and_eq_true, beq_iff_eq, decide_eq_true_eq] at hcaches
  rw [bubbleWindowSize] at hroom
  rw [cacheCount] at hend
  have hlive := h.shows.create text isOutgoing (-1) message
  -- the message as it is cached
  generalize hm : (⟨if isOutgoing then 0 else 1, 0xFF, text.take 4095⟩ : CachedMessage) = m
  have hshown : (displayText text, isOutgoing) = m.shown := by
    rw [← hm, CachedMessage.shown, displayText_take]
    cases isOutgoing <;> rfl
  have hwindow : s.windowShown ++ [(displayText text, isOutgoing)] =
      (slice (s.cache ++ [m]) s.windowStart.toNat (s.cache.length + 1)).map
        CachedMessage.shown := by
    rw [windowShown_of_idle hidle, hshown,
      ← slice_append_slice _ (show s.windowStart.toNat ≤ s.cache.length by omega)
        (Nat.le_succ s.cache.length),
      slice_succ List.getElem?_concat_length, slice_of_append _ (Nat.le_refl _), List.map_append,
      show s.windowEnd.toNat = s.cache.length by omega]
    rfl
  rw [hwindow] at hlive
  unfold cacheLive
  rw [if_pos ⟨hcaches.1.1, hcaches.1.2, hcaches.2⟩]
  rw [hm]
  refine windowInv_of_idle hscreen hidle hnonneg ?_ ?_ ?_ (fun _ => hcaches.1) hlive
  · change s.windowStart ≤ s.cache.length + 1
    omega
  · rw [List.length_append]
    exact Int.le_refl _
  · change (s.cache.length : ℤ) + 1 - s.windowStart ≤ 5
    omega

/-- A live message that is not cached gets no bubble among those of the active contact. -/
theorem WindowInv.addUncached (h : s.WindowInv) (text : List UInt8) (isOutgoing : Bool)
    {contactIdx : ℕ} (message : Option ℕ) {room : Bool} (hscreen : s.screen = true)
    (hcaches : s.caches contactIdx = false)
    (hother : room = true → contactIdx ≠ s.activeContact) :
    ((s.withBubbles (s.bubbles.chatBubbleAddLive text isOutgoing (some contactIdx) message
      room)).cacheLive text isOutgoing contactIdx).WindowInv := by
  have hno : ¬ (s.cacheAllocated = true ∧ s.cacheSlot = some contactIdx ∧
      s.cache.length < msgCacheSize) := by
    rintro ⟨halloc, hslot, hlen⟩
    rw [caches, halloc, hslot, beq_self_eq_true, decide_eq_true hlen] at hcaches
    cases hcaches
  have hsame : ∀ bubbles, (s.withBubbles bubbles).cacheLive text isOutgoing contactIdx =
      s.withBubbles bubbles := fun _ => if_neg hno
  rw [hsame]
  exact h.of_shows hscreen (h.shows.create_other text isOutgoing (-1) message
    fun hroom heq => hother hroom (Option.some.inj heq))

/-- A live message that fits is added to bubbles and window, or to neither. -/
theorem WindowInv.addMessage (h : s.WindowInv) {text : List UInt8} {isOutgoing : Bool}
    {contactIdx : ℕ} {message : Option ℕ} {room : Bool}
    (hop : s.screen = true → s.LiveFits contactIdx room) :
    (s.uiChatAddMessage text isOutgoing contactIdx message room).WindowInv := by
  unfold uiChatAddMessage
  by_cases hscreen : s.screen = true
  · obtain ⟨hiff, hatEnd⟩ := hop hscreen
    rw [if_pos hscreen]
    by_cases hactive : contactIdx = s.activeContact
    · obtain ⟨hinv, hsize⟩ := h.evict hscreen
      obtain ⟨hsame, hcaches', hcache, hend', hidle', hcontact⟩ := s.evict_frame
      rw [← hsame] at hscreen
      rw [if_pos hactive]
      by_cases hcaches : s.caches contactIdx = true
      · obtain ⟨rfl, rfl⟩ := hiff.mp hcaches
        obtain ⟨hend, hidle⟩ := hatEnd hcaches
        rw [← hcontact]
        rw [← hcaches', ← hcontact] at hcaches
        exact hinv.addCached text isOutgoing message hscreen hcaches
          (by rw [hend', hend, cacheCount, cacheCount, hcache]) (hidle'.trans hidle)
          (by rw [hend']; exact hsize hidle)
      · rw [Bool.not_eq_true] at hcaches
        refine hinv.addUncached text isOutgoing message hscreen (hcaches' ▸ hcaches) ?_
        intro hroom _
        rw [hiff.mpr ⟨hactive, hroom⟩] at hcaches
        cases hcaches
    · have hcaches : s.caches contactIdx = false := by
        by_contra hyes
        exact hactive (hiff.mp (Bool.not_eq_false _ ▸ hyes)).1
      rw [if_neg hactive]
      exact h.addUncached text isOutgoing message hscreen hcaches fun _ => hactive
  · rw [if_neg hscreen]
    exact h

/-! ### Runs -/

/-- An operation that keeps bubbles and window together keeps the invariant. -/
theorem WindowInv.step (h : s.WindowInv) {op : ChatOp} (hop : op.KeepsWindow s) :
    (s.step op).WindowInv := by
  cases op with
  | create => exact h.create hop
  | cleanup => exact h.cleanup
  | switchContact contactIdx => exact h.switchContact hop
  | clearContact contactIdx => exact h.clearContact hop
  | historyBatch loaded slot alloc freeSize => exact h.historyBatch hop.1 hop.2
  | renderTick rooms => exact h.renderTick hop
  | scroll nearTop nearBottom rooms => exact h.scroll hop
  | addMessage text isOutgoing contactIdx room => exact h.addMessage hop
  | sendMessage text room =>
    simp only [Chat.step, doSendMessage]
    by_cases hskip : s.screen = false ∨ text = []
    · rw [if_pos hskip]
      exact h
    · rw [not_or, Bool.not_eq_false] at hskip
      rw [if_neg (by rw [not_or, Bool.not_eq_false]; exact hskip)]
      have hinv : WindowInv { s with
          bubbles := s.bubbles.chatBubbleNextSeq
          sent := s.sent ++ [s.bubbles.chatBubbleNextSeq.msgSeqCounter] } := by
        refine ⟨h.start_nonneg, h.start_le, h.end_le, h.size, h.shows.congr rfl rfl, h.cached,
          fun hyes hscreen => ?_, h.screenless⟩
        obtain ⟨hstart, hidx, hend, hsetup, hbatch, hslot⟩ := h.rendering hyes hscreen
        exact ⟨hstart, hidx, hend, hsetup, hbatch, hslot⟩
      exact hinv.addMessage fun _ => hop hskip
  | updateStatus message status =>
    simp only [Chat.step, uiChatUpdateStatus]
    cases s.sent[message]? with
    | none => exact h
    | some msgSeq =>
      dsimp only
      by_cases hscreen : s.screen = true
      · rw [if_pos hscreen]
        exact h.of_shows hscreen (h.shows.updateStatus msgSeq status)
      · rw [if_neg hscreen]
        exact h

/-- Before the chat screen is created there is nothing to show. -/
theorem windowInv_boot : boot.WindowInv :=
  windowInv_of_empty rfl rfl rfl rfl rfl nofun

end Chat

/-- Whatever is done to the chat screen, as long as each operation keeps bubbles and window
together, the window lies in the cache, has at most `BUBBLE_WINDOW_SIZE` messages, and the
bubbles of the active contact are those of its messages. -/
theorem chat_window_exact {ops : List ChatOp}
    (hops : StepsMeet Chat.step (fun s op => op.KeepsWindow s) .boot ops) :
    (runFrom Chat.step .boot ops).WindowExact :=
  (hops.invariant (fun _ _ hinv hop => Chat.WindowInv.step hinv hop) Chat.windowInv_boot).exact

/-- Eight messages of contact 2 are loaded and rendered in two chunks, the user scrolls up and
down again, and a message comes. -/
def readingRun : List ChatOp :=
  [.create, .switchContact 2,
    .historyBatch (List.replicate 8 ⟨1, 0, [0x68, 0x69]⟩) 2 true 60000,
    .renderTick fun _ => true, .renderTick fun _ => true, .scroll true false fun _ => true,
    .scroll false true fun _ => true, .addMessage [0x79, 0x6F] false 2 true]

/-- The window is exact after it. -/
theorem chat_window_exact_reading : (runFrom Chat.step .boot readingRun).WindowExact :=
  chat_window_exact (by decide)

/-- The chat of contact 2 is left for that of contact 3: the bubbles and the cache are gone,
the window still ends behind the eighth message. -/
theorem chat_window_left_behind :
    ¬ (runFrom Chat.step .boot (readingRun ++ [.switchContact 3])).WindowExact := by
  intro h
  have hend := h.end_le
  revert hend
  decide

end SimpleGo
