import SimpleGo.Ui.Chat

/-!
# What a chunk and a scroll event render

Which messages of the batch or of the cache get a bubble, in the order of the creations, and
that the new bubbles are those of these messages: a bubble from the history shows the text, the
direction and the status of the message it was created for.
-/

namespace SimpleGo

open Lib

/-- The bubble is what `chat_bubble_add_history` creates for the message. -/
def CachedMessage.DrawnAs (m : CachedMessage) (b : Bubble) : Prop :=
  b.text = displayText m.text ∧ b.isOutgoing = m.isSent ∧ b.message = none ∧
    b.mark = if m.isSent then some (statusMark m.deliveryStatus.toNat) else none

/-! ### The indices -/

/-- The indices of the batch that a chunk gives a bubble. -/
def batchIndices (count : ℕ) (rooms : ℤ → Bool) : ℕ → (h : ℤ) → List ℕ
  | 0, _ => []
  | n + 1, h =>
    (if h.toNat < count ∧ rooms h = true then [h.toNat] else []) ++
      batchIndices count rooms n (h + 1)

/-- The index of the cache, if `render_cache_bubble` gives it a bubble. -/
def drawnIndex (count : ℕ) (rooms : ℤ → Bool) (i : ℤ) : List ℕ :=
  if 0 ≤ i ∧ i < count ∧ rooms i = true then [i.toNat] else []

/-- The indices that `load_older_messages` gives a bubble. -/
def olderIndices (count : ℕ) (rooms : ℤ → Bool) : ℕ → (i : ℤ) → List ℕ
  | 0, _ => []
  | n + 1, i => drawnIndex count rooms i ++ olderIndices count rooms n (i - 1)

/-- The indices that `load_newer_messages` gives a bubble; a refused creation moves the end of
the window. -/
def newerIndices (count : ℕ) (rooms : ℤ → Bool) (toAdd : ℤ) :
    (steps : ℕ) → (i windowEnd : ℤ) → List ℕ
  | 0, _, _ => []
  | steps + 1, i, windowEnd =>
    if i < windowEnd + toAdd then
      drawnIndex count rooms i ++ newerIndices count rooms toAdd steps (i + 1)
        (if 0 ≤ i ∧ i < count ∧ rooms i = false then i else windowEnd)
    else []

namespace Chat

/-- The indices of the batch that the next chunk gives a bubble. -/
def renderedBatch (s : Chat) (rooms : ℤ → Bool) : List ℕ :=
  if s.screen = true ∧ s.histRendering = true ∧ s.histBatch ≠ [] then
    batchIndices s.histBatch.length rooms
      (min (s.histRenderIdx + historyChunkSize) s.histRenderEnd - s.histRenderIdx).toNat
      s.histRenderIdx
  else []

/-- The indices of the cache that a scroll event gives a bubble. -/
def renderedCache (s : Chat) (nearTop nearBottom : Bool) (rooms : ℤ → Bool) : List ℕ :=
  if s.scrollsOlder nearTop then
    olderIndices s.cache.length rooms s.olderCount.toNat (s.windowStart - 1)
  else if s.scrollsNewer nearTop nearBottom then
    newerIndices s.cache.length rooms s.newerCount
      (s.cacheCount - s.windowEnd + s.newerCount).toNat s.windowEnd s.windowEnd
  else []

/-! ### The new bubbles -/

/-- From `s` to `s'` the messages of a list at some indices got bubbles, in this order, and
nothing else was created, tracked or numbered. -/
structure Draws (source : List CachedMessage) (s s' : Chat) (indices : List ℕ) : Prop where
  screen : s'.screen = s.screen
  sent : s'.sent = s.sent
  tracked : s'.bubbles.trackedMsgs = s.bubbles.trackedMsgs
  counter : s'.bubbles.msgSeqCounter = s.bubbles.msgSeqCounter
  created : s'.bubbles.created = s.bubbles.created + indices.length
  children : ∀ b ∈ s'.bubbles.children, b ∈ s.bubbles.children ∨
    ∃ k i m, indices[k]? = some i ∧ source[i]? = some m ∧ b.id = s.bubbles.created + k ∧
      m.DrawnAs b

variable {source : List CachedMessage} {s s' s'' : Chat}

/-- Bubbles may be deleted. -/
theorem Draws.of_subset (hscreen : s'.screen = s.screen) (hsent : s'.sent = s.sent)
    (htracked : s'.bubbles.trackedMsgs = s.bubbles.trackedMsgs)
    (hcounter : s'.bubbles.msgSeqCounter = s.bubbles.msgSeqCounter)
    (hcreated : s'.bubbles.created = s.bubbles.created)
    (hchildren : ∀ b ∈ s'.bubbles.children, b ∈ s.bubbles.children) : Draws source s s' [] :=
  ⟨hscreen, hsent, htracked, hcounter, hcreated, fun b hb => Or.inl (hchildren b hb)⟩

/-- Nothing happens. -/
theorem Draws.refl (source : List CachedMessage) (s : Chat) : Draws source s s [] :=
  .of_subset rfl rfl rfl rfl rfl fun _ => id

/-- Window and flags may be set differently. -/
theorem Draws.congr {indices : List ℕ} (h : Draws source s s' indices)
    (hscreen : s''.screen = s'.screen) (hsent : s''.sent = s'.sent)
    (hbubbles : s''.bubbles = s'.bubbles) : Draws source s s'' indices where
  screen := hscreen.trans h.screen
  sent := hsent.trans h.sent
  tracked := by rw [hbubbles, h.tracked]
  counter := by rw [hbubbles, h.counter]
  created := by rw [hbubbles, h.created]
  children := hbubbles ▸ h.children

/-- One rendering after another. -/
theorem Draws.trans {first second : List ℕ} (h : Draws source s s' first)
    (h' : Draws source s' s'' second) : Draws source s s'' (first ++ second) where
  screen := h'.screen.trans h.screen
  sent := h'.sent.trans h.sent
  tracked := h'.tracked.trans h.tracked
  counter := h'.counter.trans h.counter
  created := by rw [h'.created, h.created, List.length_append, Nat.add_assoc]
  children := by
    intro b hb
    rcases h'.children b hb with hb | ⟨k, i, m, hk, hm, hid, hdrawn⟩
    · rcases h.children b hb with hb | ⟨k, i, m, hk, hm, hid, hdrawn⟩
      · exact Or.inl hb
      · refine Or.inr ⟨k, i, m, ?_, hm, hid, hdrawn⟩
        rw [List.getElem?_append_left (List.getElem?_eq_some_iff.mp hk).1, hk]
    · refine Or.inr ⟨first.length + k, i, m, ?_, hm, ?_, hdrawn⟩
      · rw [List.getElem?_append_right (Nat.le_add_right _ _), Nat.add_sub_cancel_left, hk]
      · rw [hid, h.created, Nat.add_assoc]

/-- One message gets a bubble; the bubbles may be reordered. -/
theorem Draws.create {i : ℕ} {m : CachedMessage} (hm : source[i]? = some m)
    {contactIdx : Option ℕ} (hscreen : s'.screen = s.screen) (hsent : s'.sent = s.sent)
    {bubbles : ChatBubbles} (hbubbles : bubbles =
      s.bubbles.chatBubbleAddHistory m.text m.isSent contactIdx m.deliveryStatus true)
    (htracked : s'.bubbles.trackedMsgs = bubbles.trackedMsgs)
    (hcounter : s'.bubbles.msgSeqCounter = bubbles.msgSeqCounter)
    (hcreated : s'.bubbles.created = bubbles.created)
    (hchildren : ∀ b ∈ s'.bubbles.children, b ∈ bubbles.children) : Draws source s s' [i] where
  screen := hscreen
  sent := hsent
  tracked := by
    rw [htracked, hbubbles]
    exact if_neg fun hlive => absurd hlive.2 (Int.not_lt.mpr (Int.natCast_nonneg _))
  counter := by
    rw [hcounter, hbubbles]
    rfl
  created := by
    rw [hcreated, hbubbles]
    rfl
  children := by
    intro b hb
    have hnew := hchildren b hb
    rw [hbubbles] at hnew
    rcases List.mem_append.mp hnew with hold | hnew
    · exact Or.inl hold
    · rw [List.mem_singleton.mp hnew]
      exact Or.inr ⟨0, i, m, rfl, hm, rfl, rfl, rfl, rfl, rfl⟩

/-! ### Chunks -/

/-- A message of the batch gets a bubble. -/
theorem uiChatAddHistoryMessage_draws {i : ℕ} {m : CachedMessage} (hm : source[i]? = some m)
    (hscreen : s.screen = true) : Draws source s (s.uiChatAddHistoryMessage m true) [i] := by
  unfold uiChatAddHistoryMessage
  rw [if_pos hscreen]
  exact .create hm rfl rfl rfl rfl rfl rfl fun _ hb => hb

/-- The loop of a chunk gives the messages with room their bubbles. -/
theorem renderBatch_draws (rooms : ℤ → Bool) (n : ℕ) (h : ℤ) {s : Chat}
    (hscreen : s.screen = true) :
    Draws s.histBatch s (s.renderBatch rooms n h) (batchIndices s.histBatch.length rooms n h) := by
  induction n generalizing h s with
  | zero => exact .refl _ s
  | succ n ih =>
    rw [renderBatch, batchIndices]
    by_cases hlt : h.toNat < s.histBatch.length
    · have hm := List.getElem?_eq_getElem hlt
      generalize s.histBatch[h.toNat] = m at hm
      have hframe : ∀ room, (s.uiChatAddHistoryMessage m room).screen = s.screen ∧
          (s.uiChatAddHistoryMessage m room).histBatch = s.histBatch := by
        intro room
        unfold uiChatAddHistoryMessage
        rw [if_pos hscreen]
        exact ⟨rfl, rfl⟩
      obtain ⟨hscreen', hbatch⟩ := hframe (rooms h)
      have hrest := ih (h + 1) (hscreen'.trans hscreen)
      rw [hbatch] at hrest
      rw [hm]
      dsimp only
      by_cases hroom : rooms h = true
      · rw [if_pos ⟨hlt, hroom⟩]
        rw [hroom] at hrest ⊢
        exact (uiChatAddHistoryMessage_draws hm hscreen).trans hrest
      · rw [if_neg fun hboth => hroom hboth.2]
        rw [Bool.not_eq_true] at hroom
        have hsame : s.uiChatAddHistoryMessage m false = s := by
          unfold uiChatAddHistoryMessage
          rw [if_pos hscreen]
          rfl
        rw [hroom, hsame] at hrest ⊢
        exact hrest
    · rw [List.getElem?_eq_none (Nat.le_of_not_lt hlt), if_neg fun hboth => hlt hboth.1]
      exact ih (h + 1) hscreen

/-- Without a screen a chunk renders nothing. -/
theorem renderBatch_of_no_screen (rooms : ℤ → Bool) (n : ℕ) (h : ℤ) {s : Chat}
    (hscreen : s.screen ≠ true) : s.renderBatch rooms n h = s := by
  induction n generalizing h with
  | zero => rfl
  | succ n ih =>
    rw [renderBatch]
    cases s.histBatch[h.toNat]? with
    | none => exact ih (h + 1)
    | some m =>
      have hsame : s.uiChatAddHistoryMessage m (rooms h) = s := if_neg hscreen
      dsimp only
      rw [hsame]
      exact ih (h + 1)

/-- A chunk gives the messages of the batch with room their bubbles. -/
theorem renderTick_draws (rooms : ℤ → Bool) (s : Chat) :
    Draws s.histBatch s (s.renderTick rooms) (s.renderedBatch rooms) := by
  unfold renderTick renderedBatch
  by_cases hrendering : s.histRendering = true ∧ s.histBatch ≠ []
  · rw [if_pos hrendering]
    generalize min (s.histRenderIdx + historyChunkSize) s.histRenderEnd = stop
    have hdraws : Draws s.histBatch s (s.renderBatch rooms (stop - s.histRenderIdx).toNat
        s.histRenderIdx) (if s.screen = true ∧ s.histRendering = true ∧ s.histBatch ≠ [] then
          batchIndices s.histBatch.length rooms (stop - s.histRenderIdx).toNat s.histRenderIdx
        else []) := by
      by_cases hscreen : s.screen = true
      · rw [if_pos ⟨hscreen, hrendering⟩]
        exact renderBatch_draws rooms _ _ hscreen
      · rw [if_neg fun hall => hscreen hall.1, renderBatch_of_no_screen rooms _ _ hscreen]
        exact .refl _ s
    dsimp only
    generalize (if s.screen = true ∧ s.histRendering = true ∧ s.histBatch ≠ [] then _ else _) =
      indices at hdraws ⊢
    by_cases hdone : (s.renderBatch rooms (stop - s.histRenderIdx).toNat
        s.histRenderIdx).histRenderEnd ≤ stop
    · rw [if_pos hdone]
      exact hdraws.congr rfl rfl rfl
    · rw [if_neg hdone]
      exact hdraws.congr rfl rfl rfl
  · rw [if_neg hrendering, if_neg fun hall => hrendering hall.2]
    exact .refl _ s

/-! ### Scrolling -/

/-- The last child moved to the front was there before. -/
theorem mem_lastToFront {bubbles : ChatBubbles} {b : Bubble}
    (h : b ∈ bubbles.lastToFront.children) : b ∈ bubbles.children := by
  rcases List.mem_append.mp h with hlast | hrest
  · exact List.mem_of_getLast? (Option.mem_toList.mp hlast)
  · exact List.dropLast_subset _ hrest

/-- An index outside of the cache is passed over. -/
theorem renderCacheBubble_outside (rooms : ℤ → Bool) {i : ℤ} (atTop : Bool)
    (hi : ¬ (0 ≤ i ∧ i < s.cache.length)) : s.renderCacheBubble rooms i atTop = s := by
  refine if_pos ?_
  by_contra hno
  rw [not_or, not_or, Int.not_lt, Int.not_le] at hno
  exact hi ⟨hno.1, hno.2.1⟩

/-- An index of the cache is not. -/
theorem not_cacheBubble_skip {i : ℤ} (hscreen : s.screen = true)
    (hi : 0 ≤ i ∧ i < s.cache.length) : ¬ (i < 0 ∨ s.cacheCount ≤ i ∨ s.screen = false) := by
  rintro (hneg | hle | hno)
  · exact absurd hi.1 (Int.not_le.mpr hneg)
  · exact absurd hi.2 (Int.not_lt.mpr hle)
  · exact absurd (hscreen.symm.trans hno) nofun

/-- A refused message leaves the bubbles, perhaps reordered, and at the bottom it becomes the end
of the window. -/
theorem renderCacheBubble_refused {rooms : ℤ → Bool} {i : ℤ} (atTop : Bool)
    (hscreen : s.screen = true) (hi : 0 ≤ i ∧ i < s.cache.length) (hroom : rooms i = false) :
    s.renderCacheBubble rooms i atTop =
      { s with
        bubbles := if atTop then s.bubbles.lastToFront else s.bubbles
        windowStart := if atTop = true then i + 1 else s.windowStart
        windowEnd := if atTop = false then i else s.windowEnd } := by
  have hlt : i.toNat < s.cache.length := by omega
  unfold renderCacheBubble
  rw [if_neg (not_cacheBubble_skip hscreen hi), List.getElem?_eq_getElem hlt, hroom]
  have hsame : ∀ text isOutgoing contactIdx deliveryStatus,
      s.bubbles.chatBubbleAddHistory text isOutgoing contactIdx deliveryStatus false = s.bubbles :=
    fun _ _ _ _ => rfl
  simp only [hsame, true_and]

/-- A message with room gets a bubble, at the top or at the bottom. -/
theorem renderCacheBubble_drawn {rooms : ℤ → Bool} {i : ℤ} (atTop : Bool)
    (hscreen : s.screen = true) (hi : 0 ≤ i) {m : CachedMessage} (hm : s.cache[i.toNat]? = some m)
    (hroom : rooms i = true) {bubbles : ChatBubbles} (hbubbles : bubbles =
      s.bubbles.chatBubbleAddHistory m.text m.isSent s.cacheSlot m.deliveryStatus true) :
    s.renderCacheBubble rooms i atTop =
      { s with bubbles := if atTop then bubbles.lastToFront else bubbles } := by
  have hlt := (List.getElem?_eq_some_iff.mp hm).1
  have hcounted : bubbles.bubbleCount ≠ s.bubbles.bubbleCount := by
    rw [hbubbles]
    exact Nat.succ_ne_self _
  unfold renderCacheBubble
  rw [if_neg (not_cacheBubble_skip hscreen ⟨hi, by omega⟩), hm, hroom]
  simp only [← hbubbles, hcounted, false_and, if_false]

/-- A message of the cache gets a bubble, if it is there and has room. -/
theorem renderCacheBubble_draws (rooms : ℤ → Bool) (i : ℤ) (atTop : Bool)
    (hscreen : s.screen = true) :
    Draws s.cache s (s.renderCacheBubble rooms i atTop) (drawnIndex s.cache.length rooms i) ∧
      (s.renderCacheBubble rooms i atTop).cache = s.cache ∧
      (s.renderCacheBubble rooms i false).windowEnd =
        if 0 ≤ i ∧ i < s.cache.length ∧ rooms i = false then i else s.windowEnd := by
  unfold drawnIndex
  by_cases hi : 0 ≤ i ∧ i < s.cache.length
  · by_cases hroom : rooms i = true
    · have hm := List.getElem?_eq_getElem (l := s.cache) (i := i.toNat) (by omega)
      generalize s.cache[i.toNat] = m at hm
      generalize hbubbles :
        s.bubbles.chatBubbleAddHistory m.text m.isSent s.cacheSlot m.deliveryStatus true = bubbles
      have hdrawn := fun atTop =>
        renderCacheBubble_drawn atTop hscreen hi.1 hm hroom hbubbles.symm
      have hend : (if 0 ≤ i ∧ i < s.cache.length ∧ rooms i = false then i else s.windowEnd) =
          s.windowEnd := if_neg fun hrefused => Bool.false_ne_true (hrefused.2.2.symm.trans hroom)
      rw [if_pos (show 0 ≤ i ∧ i < s.cache.length ∧ rooms i = true from ⟨hi.1, hi.2, hroom⟩), hend,
        hdrawn, hdrawn]
      refine ⟨?_, rfl, rfl⟩
      cases atTop with
      | false => exact .create hm rfl rfl hbubbles.symm rfl rfl rfl fun _ => id
      | true => exact .create hm rfl rfl hbubbles.symm rfl rfl rfl fun _ => mem_lastToFront
    · rw [Bool.not_eq_true] at hroom
      have hrefused := fun atTop => renderCacheBubble_refused atTop hscreen hi hroom
      have hnone : (if 0 ≤ i ∧ i < s.cache.length ∧ rooms i = true then [i.toNat] else []) = [] :=
        if_neg fun hall => Bool.false_ne_true (hroom.symm.trans hall.2.2)
      rw [if_pos (show 0 ≤ i ∧ i < s.cache.length ∧ rooms i = false from ⟨hi.1, hi.2, hroom⟩),
        hnone, hrefused, hrefused]
      refine ⟨?_, rfl, rfl⟩
      cases atTop with
      | false => exact .of_subset rfl rfl rfl rfl rfl fun _ => id
      | true => exact .of_subset rfl rfl rfl rfl rfl fun _ => mem_lastToFront
  · have houtside := fun atTop => renderCacheBubble_outside rooms atTop hi
    rw [houtside, houtside, if_neg fun hall => hi ⟨hall.1, hall.2.1⟩,
      if_neg fun hall => hi ⟨hall.1, hall.2.1⟩]
    exact ⟨.refl _ s, rfl, rfl⟩

/-- Older messages get their bubbles downwards. -/
theorem renderOlder_draws (rooms : ℤ → Bool) (n : ℕ) (i : ℤ) {s : Chat}
    (hscreen : s.screen = true) :
    Draws s.cache s (s.renderOlder rooms n i) (olderIndices s.cache.length rooms n i) := by
  induction n generalizing i s with
  | zero => exact .refl _ s
  | succ n ih =>
    obtain ⟨hdraws, hcache, -⟩ := renderCacheBubble_draws rooms i true hscreen
    have hrest := ih (i - 1) (hdraws.screen.trans hscreen)
    rw [hcache] at hrest
    exact hdraws.trans hrest

/-- Newer messages get theirs upwards, as far as the moving end of the window. -/
theorem renderNewer_draws (rooms : ℤ → Bool) (toAdd : ℤ) (steps : ℕ) (i : ℤ) {s : Chat}
    (hscreen : s.screen = true) :
    Draws s.cache s (s.renderNewer rooms toAdd steps i)
      (newerIndices s.cache.length rooms toAdd steps i s.windowEnd) := by
  induction steps generalizing i s with
  | zero => exact .refl _ s
  | succ steps ih =>
    rw [renderNewer, newerIndices]
    by_cases hi : i < s.windowEnd + toAdd
    · obtain ⟨hdraws, hcache, hend⟩ := renderCacheBubble_draws rooms i false hscreen
      have hrest := ih (i + 1) (hdraws.screen.trans hscreen)
      rw [hcache, hend] at hrest
      rw [if_pos hi, if_pos hi]
      exact hdraws.trans hrest
    · rw [if_neg hi, if_neg hi]
      exact .refl _ s

/-- Bubbles removed at one end are not created. -/
theorem mem_removeOldest {bubbles : ChatBubbles} {count : ℤ} {contactIdx : Option ℕ} {b : Bubble}
    (h : b ∈ (bubbles.chatBubbleRemoveOldest count contactIdx).children) :
    b ∈ bubbles.children := by
  unfold ChatBubbles.chatBubbleRemoveOldest at h
  by_cases hcount : count ≤ 0
  · rwa [if_pos hcount] at h
  · rw [if_neg hcount] at h
    exact (removeFirst_sublist _ _ _).subset h

/-- Neither are those removed at the other. -/
theorem mem_removeNewest {bubbles : ChatBubbles} {count : ℤ} {contactIdx : Option ℕ} {b : Bubble}
    (h : b ∈ (bubbles.chatBubbleRemoveNewest count contactIdx).children) :
    b ∈ bubbles.children := by
  unfold ChatBubbles.chatBubbleRemoveNewest at h
  by_cases hcount : count ≤ 0
  · rwa [if_pos hcount] at h
  · rw [if_neg hcount] at h
    exact (removeLast_sublist _ _ _).subset h

/-- A removal changes the children and their count only. -/
theorem removeOldest_frame (bubbles : ChatBubbles) (count : ℤ) (contactIdx : Option ℕ) :
    (bubbles.chatBubbleRemoveOldest count contactIdx).trackedMsgs = bubbles.trackedMsgs ∧
      (bubbles.chatBubbleRemoveOldest count contactIdx).msgSeqCounter = bubbles.msgSeqCounter ∧
      (bubbles.chatBubbleRemoveOldest count contactIdx).created = bubbles.created := by
  unfold ChatBubbles.chatBubbleRemoveOldest
  split_ifs
  · exact ⟨rfl, rfl, rfl⟩
  · exact ⟨rfl, rfl, rfl⟩

/-- So does one at the other end. -/
theorem removeNewest_frame (bubbles : ChatBubbles) (count : ℤ) (contactIdx : Option ℕ) :
    (bubbles.chatBubbleRemoveNewest count contactIdx).trackedMsgs = bubbles.trackedMsgs ∧
      (bubbles.chatBubbleRemoveNewest count contactIdx).msgSeqCounter = bubbles.msgSeqCounter ∧
      (bubbles.chatBubbleRemoveNewest count contactIdx).created = bubbles.created := by
  unfold ChatBubbles.chatBubbleRemoveNewest
  split_ifs
  · exact ⟨rfl, rfl, rfl⟩
  · exact ⟨rfl, rfl, rfl⟩

/-- Older messages take the place of removed bubbles. -/
theorem loadOlderMessages_draws (rooms : ℤ → Bool) (hscreen : s.screen = true)
    (hstart : ¬ s.windowStart ≤ 0) :
    Draws s.cache s (s.loadOlderMessages rooms)
      (olderIndices s.cache.length rooms s.olderCount.toNat (s.windowStart - 1)) := by
  unfold loadOlderMessages
  rw [if_neg hstart]
  dsimp only
  generalize s.windowEnd - s.windowStart + s.olderCount - bubbleWindowSize = need
  obtain ⟨htracked, hcounter, hcreated⟩ := removeNewest_frame s.bubbles need s.cacheSlot
  have hgone := @mem_removeNewest s.bubbles need s.cacheSlot
  generalize s.bubbles.chatBubbleRemoveNewest need s.cacheSlot = bubbles at *
  generalize hs₁ : ({ s with
    bubbles := bubbles
    windowEnd := s.windowEnd - s.bubbles.removed bubbles } : Chat) = s₁
  have hkeep : Draws s.cache s s₁ [] := by
    rw [← hs₁]
    exact .of_subset rfl rfl htracked hcounter hcreated fun _ => hgone
  have hcache : s₁.cache = s.cache := by rw [← hs₁]
  have hrender := renderOlder_draws rooms s.olderCount.toNat (s.windowStart - 1)
    (hkeep.screen.trans hscreen)
  rw [hcache] at hrender
  exact (hkeep.trans hrender).congr rfl rfl rfl

/-- Newer messages take the place of removed bubbles. -/
theorem loadNewerMessages_draws (rooms : ℤ → Bool) (hscreen : s.screen = true)
    (hend : ¬ s.cacheCount ≤ s.windowEnd) :
    Draws s.cache s (s.loadNewerMessages rooms)
      (newerIndices s.cache.length rooms s.newerCount
        (s.cacheCount - s.windowEnd + s.newerCount).toNat s.windowEnd s.windowEnd) := by
  unfold loadNewerMessages
  rw [if_neg hend]
  dsimp only
  generalize s.windowEnd - s.windowStart + s.newerCount - bubbleWindowSize = need
  obtain ⟨htracked, hcounter, hcreated⟩ := removeOldest_frame s.bubbles need s.cacheSlot
  have hgone := @mem_removeOldest s.bubbles need s.cacheSlot
  generalize s.bubbles.chatBubbleRemoveOldest need s.cacheSlot = bubbles at *
  generalize hs₁ : ({ s with
    bubbles := bubbles
    windowStart := s.windowStart + s.bubbles.removed bubbles } : Chat) = s₁
  have hkeep : Draws s.cache s s₁ [] := by
    rw [← hs₁]
    exact .of_subset rfl rfl htracked hcounter hcreated fun _ => hgone
  have hcache : s₁.cache = s.cache := by rw [← hs₁]
  have hwindow : s₁.windowEnd = s.windowEnd := by rw [← hs₁]
  have hrender := renderNewer_draws rooms s.newerCount
    (s.cacheCount - s.windowEnd + s.newerCount).toNat s.windowEnd (hkeep.screen.trans hscreen)
  rw [hcache, hwindow] at hrender
  have hcount : s₁.cacheCount = s.cacheCount := by rw [cacheCount, hcache, cacheCount]
  rw [hcount]
  exact (hkeep.trans hrender).congr rfl rfl rfl

/-- A scroll event gives the messages of the cache that it renders their bubbles. -/
theorem onScrollCb_draws (s : Chat) (nearTop nearBottom : Bool) (rooms : ℤ → Bool) :
    Draws s.cache s (s.onScrollCb nearTop nearBottom rooms)
      (s.renderedCache nearTop nearBottom rooms) := by
  unfold onScrollCb renderedCache
  by_cases holder : s.scrollsOlder nearTop = true
  · rw [if_pos holder, if_pos holder]
    simp only [scrollsOlder, scrollAllowed, Bool.and_eq_true, decide_eq_true_eq] at holder
    have hload := loadOlderMessages_draws (s := { s with loadingOlder := true, windowBusy := true })
      rooms holder.1.1.1.1.1.1.1 (Int.not_le.mpr holder.1.2)
    exact ⟨hload.screen, hload.sent, hload.tracked, hload.counter, hload.created, hload.children⟩
  · rw [if_neg holder, if_neg holder]
    by_cases hnewer : s.scrollsNewer nearTop nearBottom = true
    · rw [if_pos hnewer, if_pos hnewer]
      simp only [scrollsNewer, scrollAllowed, Bool.and_eq_true, decide_eq_true_eq] at hnewer
      have hload := loadNewerMessages_draws
        (s := { s with loadingNewer := true, windowBusy := true }) rooms
        hnewer.1.1.1.1.1.1.1.1 (Int.not_le.mpr hnewer.1.2)
      exact ⟨hload.screen, hload.sent, hload.tracked, hload.counter, hload.created, hload.children⟩
    · rw [if_neg hnewer, if_neg hnewer]
      exact .refl _ s

/-! ### Live messages -/

/-- From `s` to `s'` a live message got a bubble, or was refused one; perhaps another bubble was
evicted. An outgoing one's label is tracked under the last number. -/
structure AddsLive (s s' : Chat) (isOutgoing : Bool) (message : Option ℕ) (room : Bool) :
    Prop where
  screen : s'.screen = s.screen
  sent : s'.sent = s.sent
  tracked : s'.bubbles.trackedMsgs =
    if isOutgoing = true ∧ room = true then
      trackLabel s.bubbles.created s.bubbles.msgSeqCounter s.bubbles.trackedMsgs
    else s.bubbles.trackedMsgs
  created : s.bubbles.created ≤ s'.bubbles.created
  children : ∀ b ∈ s'.bubbles.children, b ∈ s.bubbles.children ∨
    (b.id = s.bubbles.created ∧ b.id < s'.bubbles.created ∧ b.message = message)

/-- The eviction creates nothing. -/
theorem evict_draws (s : Chat) : Draws source s s.evict [] := by
  unfold evict
  by_cases hfull : bubbleWindowSize ≤ s.bubbles.bubbleCount
  · rw [if_pos hfull]
    obtain ⟨htracked, hcounter, hcreated⟩ :=
      removeOldest_frame s.bubbles 1 (some s.activeContact)
    exact .of_subset rfl rfl htracked hcounter hcreated fun _ => mem_removeOldest
  · rw [if_neg hfull]
    exact .refl _ s

/-- `create_bubble_internal` for a live message. -/
theorem addLive_addsLive (s : Chat) (text : List UInt8) (isOutgoing : Bool) (contactIdx : Option ℕ)
    (message : Option ℕ) (room : Bool) :
    AddsLive s { s with
        bubbles := s.bubbles.chatBubbleAddLive text isOutgoing contactIdx message room }
      isOutgoing message room := by
  cases room with
  | false => exact ⟨rfl, rfl, (if_neg fun h => nomatch h.2).symm, Nat.le_refl _, fun _ => Or.inl⟩
  | true =>
    refine ⟨rfl, rfl, ?_, Nat.le_succ _, fun b hb => ?_⟩
    · cases isOutgoing <;> rfl
    · rcases List.mem_append.mp hb with hold | hnew
      · exact Or.inl hold
      · rw [List.mem_singleton.mp hnew]
        exact Or.inr ⟨rfl, Nat.lt_succ_self _, rfl⟩

/-- `ui_chat_add_message` on a screen. -/
theorem uiChatAddMessage_addsLive (s : Chat) (text : List UInt8) (isOutgoing : Bool)
    (contactIdx : ℕ) (message : Option ℕ) (room : Bool) (hscreen : s.screen = true) :
    AddsLive s (s.uiChatAddMessage text isOutgoing contactIdx message room) isOutgoing message
      room := by
  unfold uiChatAddMessage
  rw [if_pos hscreen]
  have hevicted : Draws [] s (if contactIdx = s.activeContact then s.evict else s) [] := by
    by_cases hactive : contactIdx = s.activeContact
    · rw [if_pos hactive]
      exact s.evict_draws
    · rw [if_neg hactive]
      exact .refl _ s
  generalize (if contactIdx = s.activeContact then s.evict else s) = s₁ at hevicted
  dsimp only
  have hlive := addLive_addsLive s₁ text isOutgoing (some contactIdx) message room
  generalize ({ s₁ with
    bubbles := s₁.bubbles.chatBubbleAddLive text isOutgoing (some contactIdx) message room } :
      Chat) = s₂ at hlive ⊢
  have hcached : (s₂.cacheLive text isOutgoing contactIdx).screen = s₂.screen ∧
      (s₂.cacheLive text isOutgoing contactIdx).sent = s₂.sent ∧
      (s₂.cacheLive text isOutgoing contactIdx).bubbles = s₂.bubbles := by
    unfold cacheLive
    by_cases hcached : s₂.cacheAllocated = true ∧ s₂.cacheSlot = some contactIdx ∧
        s₂.cache.length < msgCacheSize
    · rw [if_pos hcached]
      exact ⟨rfl, rfl, rfl⟩
    · rw [if_neg hcached]
      exact ⟨rfl, rfl, rfl⟩
  obtain ⟨hscreen', hsent', hbubbles'⟩ := hcached
  have hcreated : s₁.bubbles.created = s.bubbles.created := hevicted.created
  refine ⟨?_, ?_, ?_, ?_, fun b hb => ?_⟩
  · rw [hscreen', hlive.screen, hevicted.screen]
  · rw [hsent', hlive.sent, hevicted.sent]
  · rw [hbubbles', hlive.tracked, hcreated, hevicted.tracked, hevicted.counter]
  · rw [hbubbles', ← hcreated]
    exact hlive.created
  · rw [hbubbles'] at hb ⊢
    rcases hlive.children b hb with hold | ⟨hid, hlt, hmessage⟩
    · rcases hevicted.children b hold with hold | ⟨k, i, m, hk, -⟩
      · exact Or.inl hold
      · cases hk
    · exact Or.inr ⟨hid.trans hcreated, hlt, hmessage⟩

/-- Only a text that the user sends gets a number. -/
theorem step_sent (s : Chat) (op : ChatOp) (hop : ∀ text room, op ≠ .sendMessage text room) :
    (s.step op).sent = s.sent := by
  cases op with
  | create => rfl
  | cleanup =>
    rw [step, uiChatCleanup]
    split_ifs <;> rfl
  | switchContact contactIdx =>
    rw [step, uiChatSwitchContact]
    split_ifs <;> rfl
  | clearContact contactIdx =>
    unfold step uiChatClearContact
    split_ifs <;> rfl
  | historyBatch loaded slot alloc freeSize =>
    have hcached : ∀ batch, (s.uiChatCacheHistory batch slot alloc freeSize).sent = s.sent := by
      intro batch
      rw [uiChatCacheHistory]
      split_ifs <;> rfl
    rw [step, historyBatchEvent]
    by_cases hempty : loaded.take 20 = []
    · rw [if_pos hempty]
    · rw [if_neg hempty]
      exact hcached _
  | renderTick rooms => exact (s.renderTick_draws rooms).sent
  | scroll nearTop nearBottom rooms => exact (s.onScrollCb_draws nearTop nearBottom rooms).sent
  | addMessage text isOutgoing contactIdx room =>
    by_cases hscreen : s.screen = true
    · exact (s.uiChatAddMessage_addsLive text isOutgoing contactIdx none room hscreen).sent
    · rw [step, uiChatAddMessage, if_neg hscreen]
  | sendMessage text room => exact absurd rfl (hop text room)
  | updateStatus message status =>
    rw [step, uiChatUpdateStatus]
    cases s.sent[message]? with
    | none => rfl
    | some msgSeq =>
      dsimp only
      split_ifs <;> rfl

end Chat

end SimpleGo
