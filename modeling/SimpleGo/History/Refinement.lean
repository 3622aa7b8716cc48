import SimpleGo.History.NonceUniqueness
import SimpleGo.History.Records

/-!
# The history store refines a list of messages

While nothing goes wrong, the file of a slot is the header and the records of the messages
appended to it, in order, and its counters are those of the abstract chat log. A load then
returns the last messages of the log.
-/

namespace SimpleGo

open Lib

variable {K : Type}

/-! ### The abstract chat log -/

/-- What the user sees of a message. -/
structure ChatEntry where
  direction : UInt8
  timestamp : Int64
  text : List UInt8

/-- The entry of a message, its text cut to what is stored. -/
def HistoryMessage.entry (msg : HistoryMessage) : ChatEntry where
  direction := msg.direction
  timestamp := msg.timestamp
  text := window msg.text 0 msg.storedLen

/-- The messages of a slot, the received ones not yet read, and the high-water mark. -/
structure ChatLog where
  messages : List HistoryMessage
  unread : ℕ
  lastDelivered : UInt16

namespace ChatLog

/-- The log of a slot without history. -/
def empty : ChatLog := ⟨[], 0, 0⟩

/-- Append a message. -/
def append (chat : ChatLog) (msg : HistoryMessage) : ChatLog where
  messages := chat.messages ++ [msg]
  unread := if msg.direction = historyDirReceived then chat.unread + 1 else chat.unread
  lastDelivered := chat.lastDelivered

/-- The log of a slot after an operation on the device. The mark needs a file. -/
def step (slot : UInt8) (chat : ChatLog) : HistoryAction → ChatLog
  | .append slot' msg _ => if slot' = slot then chat.append msg else chat
  | .markRead slot' _ => if slot' = slot then { chat with unread := 0 } else chat
  | .updateDelivered slot' msgIndex _ =>
    if slot' = slot ∧ chat.messages ≠ [] ∧ msgIndex > chat.lastDelivered then
      { chat with lastDelivered := msgIndex }
    else chat
  | _ => chat

end ChatLog

/-! ### Operations without faults -/

/-- Every write of pass 2 lands whole, in its place. A new file is at its end anyway. -/
structure AppendFaults.Written (faults : AppendFaults) (newFile : Bool) (sealedLen : ℕ) :
    Prop where
  header : newFile = true → 32 ≤ faults.headerLanded
  seekEnd : newFile = false → faults.seekEnd = true
  len : 2 ≤ faults.lenLanded
  iv : 12 ≤ faults.ivLanded
  ciphertext : sealedLen ≤ faults.ciphertextLanded
  tag : 16 ≤ faults.tagLanded
  seekStart : faults.seekStart = true
  counter : 32 ≤ faults.counterLanded

/-- The append comes to its writes. -/
structure AppendFaults.Reaches (faults : AppendFaults) : Prop where
  sdAvailable : faults.sdAvailable = true
  lock₁ : faults.lock₁ = true
  readHeader : faults.openRead = true → faults.readHeader = true
  cpu : faults.cpu = .none
  lock₂ : faults.lock₂ = true
  openWrite : faults.openWrite = true

/-- Nothing goes wrong in the append of a message. -/
structure AppendFaults.Clean (faults : AppendFaults) (msg : HistoryMessage) : Prop where
  reaches : faults.Reaches
  openRead : faults.openRead = true
  written : ∀ newFile, faults.Written newFile (12 + msg.storedLen)

/-- Nothing goes wrong in a header update. -/
structure UpdateFaults.Clean (faults : UpdateFaults) : Prop where
  lock : faults.lock = true
  openUpdate : faults.openUpdate = true
  readHeader : faults.readHeader = true
  seekStart : faults.seekStart = true
  landed : 32 ≤ faults.headerLanded

/-- An append, a mark as read or a delivery mark in which nothing goes wrong. -/
def HistoryAction.Clean : HistoryAction → Prop
  | .append _ msg faults => faults.Clean msg
  | .markRead _ faults => faults.Clean
  | .updateDelivered _ _ faults => faults.Clean
  | _ => False

/-- Fewer bytes to write are written as well. -/
theorem AppendFaults.Written.mono {faults : AppendFaults} {newFile : Bool} {len len' : ℕ}
    (h : faults.Written newFile len) (hlen : len' ≤ len) : faults.Written newFile len' :=
  { h with ciphertext := Nat.le_trans hlen h.ciphertext }

/-- The bytes of a record that land. -/
def AppendFaults.landed (faults : AppendFaults) (iv : Bytes 12)
    (sealedText : List UInt8 × Bytes 16) : List UInt8 :=
  (be16 (2 + 12 + sealedText.1.length + 16)).take faults.lenLanded ++
    iv.toList.take faults.ivLanded ++ sealedText.1.take faults.ciphertextLanded ++
    sealedText.2.toList.take faults.tagLanded

/-- A record written at the end of a file. -/
theorem historyWriteRecord_length (content : List UInt8) (iv : Bytes 12)
    (sealedText : List UInt8 × Bytes 16) (faults : AppendFaults) :
    historyWriteRecord ⟨content, content.length⟩ iv sealedText faults =
      ⟨content ++ faults.landed iv sealedText, (content ++ faults.landed iv sealedText).length⟩ := by
  simp only [historyWriteRecord, OpenFile.fwrite_length, AppendFaults.landed, List.append_assoc]

/-- Writes that land whole write the record. -/
theorem AppendFaults.Written.landed {faults : AppendFaults} {newFile : Bool} {iv : Bytes 12}
    {sealedText : List UInt8 × Bytes 16} (h : faults.Written newFile sealedText.1.length) :
    faults.landed iv sealedText = sealedRecord iv sealedText := by
  rw [AppendFaults.landed, sealedRecord, List.take_of_length_le (by simpa using h.len),
    List.take_of_length_le (by simpa using h.iv), List.take_of_length_le h.ciphertext,
    List.take_of_length_le (by simpa using h.tag)]

/-- A header written whole over another. -/
theorem historyRewriteHeader_whole (header header' : HistoryHeader) (rest : List UInt8)
    (pos : ℕ) {landed : ℕ} (hlanded : 32 ≤ landed) :
    (historyRewriteHeader ⟨header.encode ++ rest, pos⟩ header' true landed).content =
      header'.encode ++ rest := by
  rw [historyRewriteHeader, OpenFile.seekSet, if_pos rfl, OpenFile.fwrite,
    List.take_of_length_le (by simpa using hlanded)]
  exact writeAt_zero_append rest (by simp)

/-- Writes that land whole leave the counted header, the old records and the new one. -/
theorem historyAppended_written {faults : AppendFaults} {newFile : Bool} {iv : Bytes 12}
    {sealedText : List UInt8 × Bytes 16} (h : faults.Written newFile sealedText.1.length)
    (header : HistoryHeader) (direction : UInt8) {content records : List UInt8}
    (hcontent : content = if newFile then [] else header.encode ++ records)
    (hrecords : newFile = true → records = []) :
    historyAppended content header newFile iv sealedText direction faults =
      (header.counted direction).encode ++ (records ++ sealedRecord iv sealedText) := by
  have hend : historyOpenEnd content header newFile faults =
      ⟨header.encode ++ records, (header.encode ++ records).length⟩ := by
    cases newFile with
    | true =>
      rw [hcontent, hrecords rfl, List.append_nil]
      have hheader := List.take_of_length_le (by simpa using h.header rfl :
        header.encode.length ≤ faults.headerLanded)
      simp [historyOpenEnd, OpenFile.seekEnd, OpenFile.fwrite, writeAt_zero, hheader]
    | false =>
      rw [hcontent, historyOpenEnd, h.seekEnd rfl]
      rfl
  rw [historyAppended, hend, historyWriteRecord_length, h.landed, h.seekStart, List.append_assoc,
    historyRewriteHeader_whole header _ _ _ h.counter]

/-! ### The operations on a file -/

/-- A plaintext has no more bytes than an operation without faults writes. -/
theorem AppendFaults.Clean.written_plaintext {faults : AppendFaults} {msg : HistoryMessage}
    (h : faults.Clean msg) (newFile : Bool) (version : UInt8) :
    faults.Written newFile (historyPlaintext version msg).length := by
  refine (h.written newFile).mono ?_
  rw [historyPlaintext_length]
  split <;> omega

/-- An append that comes to its writes, to the header `header` found or made in pass 1. -/
theorem smpHistoryAppend_reaches (H : HistoryPrimitives K) {dev : HistoryDevice K} {slot : UInt8}
    (hinit : dev.initialized = true) (hslot : slot < 128) (msg : HistoryMessage)
    {faults : AppendFaults} (hreaches : faults.Reaches) {header : HistoryHeader}
    {newFile : Bool} {content : List UInt8}
    (hread : historyReadHeader dev.sd slot faults = .ok (header, newFile))
    (hcontent : (if newFile then some [] else dev.sd (historyBuildPath slot)) = some content) :
    smpHistoryAppend H dev slot msg faults =
      ({ dev with
          sd := dev.sd.put (historyBuildPath slot)
            (historyAppended content header newFile (historyBuildNonce slot header.msgCount)
              (H.gcmEncrypt (historyDeriveKey H dev.masterKey slot)
                (historyBuildNonce slot header.msgCount) (historyPlaintext header.version msg))
              msg.direction faults)
          sealed := ⟨historyDeriveKey H dev.masterKey slot,
            historyBuildNonce slot header.msgCount, historyPlaintext header.version msg⟩ ::
              dev.sealed }, .ok) := by
  simp only [smpHistoryAppend, hinit, hreaches.sdAvailable, UInt8.not_le.mpr hslot, hread,
    hreaches.cpu, historyWritePass, hreaches.lock₂, hreaches.openWrite, if_true, hcontent,
    Bool.not_true, Bool.false_eq_true, if_false]

/-- Pass 1 finds the header of a file. -/
theorem historyReadHeader_file {sd : Store String (List UInt8)} {slot : UInt8}
    {faults : AppendFaults} (hreaches : faults.Reaches) (hopen : faults.openRead = true)
    {header : HistoryHeader} {rest : List UInt8}
    (hfile : sd (historyBuildPath slot) = some (header.encode ++ rest))
    (hmagic : header.magic = historyMagic) :
    historyReadHeader sd slot faults = .ok (header, false) := by
  simp only [historyReadHeader, hreaches.lock₁, hopen, hreaches.readHeader hopen, hfile, if_true,
    HistoryHeader.read_encode_append, hmagic]

/-- Pass 1 makes a header where it opens no file. -/
theorem historyReadHeader_new {sd : Store String (List UInt8)} {slot : UInt8}
    {faults : AppendFaults} (hreaches : faults.Reaches)
    (hfile : (if faults.openRead then sd (historyBuildPath slot) else none) = none) :
    historyReadHeader sd slot faults = .ok (.fresh slot, true) := by
  simp only [historyReadHeader, hreaches.lock₁, hfile, if_true]

/-- A slot's file after an append without faults, with what is left of the other state. -/
structure AppendedTo (H : HistoryPrimitives K) (dev : HistoryDevice K) (slot : UInt8)
    (header : HistoryHeader) (records : List UInt8) (msg : HistoryMessage)
    (dev' : HistoryDevice K) : Prop where
  file : dev'.sd (historyBuildPath slot) = some ((header.counted msg.direction).encode ++
    (records ++ historyRecord H (historyDeriveKey H dev.masterKey slot) slot header.version
      header.msgCount.toNat msg))
  masterKey : dev'.masterKey = dev.masterKey
  initialized : dev'.initialized = dev.initialized

/-- An append to a file all of whose writes land. -/
theorem smpHistoryAppend_file (H : HistoryPrimitives K) {dev : HistoryDevice K} {slot : UInt8}
    (hinit : dev.initialized = true) (hslot : slot < 128) {msg : HistoryMessage}
    {faults : AppendFaults} (hreaches : faults.Reaches) (hopen : faults.openRead = true)
    {header : HistoryHeader} {records : List UInt8}
    (hwritten : faults.Written false (historyPlaintext header.version msg).length)
    (hfile : dev.sd (historyBuildPath slot) = some (header.encode ++ records))
    (hmagic : header.magic = historyMagic) :
    AppendedTo H dev slot header records msg (smpHistoryAppend H dev slot msg faults).1 ∧
      (smpHistoryAppend H dev slot msg faults).2 = .ok := by
  have hread := historyReadHeader_file hreaches hopen hfile hmagic
  have hcontent : (if false = true then some [] else dev.sd (historyBuildPath slot)) =
      some (header.encode ++ records) := by rw [if_neg Bool.false_ne_true, hfile]
  rw [← H.gcmEncrypt_length (historyDeriveKey H dev.masterKey slot)
    (historyBuildNonce slot header.msgCount)] at hwritten
  rw [smpHistoryAppend_reaches H hinit hslot msg hreaches hread hcontent,
    historyAppended_written hwritten header msg.direction (by rfl) (fun h => by cases h)]
  refine ⟨⟨?_, rfl, rfl⟩, rfl⟩
  rw [historyRecord, UInt16.ofNat_toNat]
  exact Store.put_self _ _ _

/-- An append all of whose writes land, to a slot in which it opens no file. -/
theorem smpHistoryAppend_new (H : HistoryPrimitives K) {dev : HistoryDevice K} {slot : UInt8}
    (hinit : dev.initialized = true) (hslot : slot < 128) {msg : HistoryMessage}
    {faults : AppendFaults} (hreaches : faults.Reaches)
    (hwritten : faults.Written true
      (historyPlaintext (HistoryHeader.fresh slot).version msg).length)
    (hfile : (if faults.openRead then dev.sd (historyBuildPath slot) else none) = none) :
    AppendedTo H dev slot (.fresh slot) [] msg (smpHistoryAppend H dev slot msg faults).1 ∧
      (smpHistoryAppend H dev slot msg faults).2 = .ok := by
  have hread := historyReadHeader_new hreaches hfile
  have hcontent : (if true = true then some [] else dev.sd (historyBuildPath slot)) = some [] := rfl
  rw [← H.gcmEncrypt_length (historyDeriveKey H dev.masterKey slot)
    (historyBuildNonce slot (HistoryHeader.fresh slot).msgCount)] at hwritten
  rw [smpHistoryAppend_reaches H hinit hslot msg hreaches hread hcontent,
    historyAppended_written hwritten (.fresh slot) msg.direction (by rfl) (fun _ => rfl)]
  refine ⟨⟨?_, rfl, rfl⟩, rfl⟩
  rw [historyRecord, UInt16.ofNat_toNat]
  exact Store.put_self _ _ _

/-- A header update without faults of a file. -/
theorem historyUpdateHeader_file {change : HistoryHeader → Option HistoryHeader}
    {dev : HistoryDevice K} {slot : UInt8} (hinit : dev.initialized = true) (hslot : slot < 128)
    {faults : UpdateFaults} (hclean : faults.Clean) {header : HistoryHeader}
    {records : List UInt8}
    (hfile : dev.sd (historyBuildPath slot) = some (header.encode ++ records)) :
    (historyUpdateHeader change dev slot faults).1 =
      match change header with
      | none => dev
      | some header' =>
        { dev with sd := dev.sd.put (historyBuildPath slot) (header'.encode ++ records) } := by
  simp only [historyUpdateHeader, hinit, UInt8.not_le.mpr hslot, hclean.lock, hclean.openUpdate,
    hclean.readHeader, hclean.seekStart, hfile, HistoryHeader.read_encode_append, if_true,
    Bool.not_true, Bool.false_eq_true, if_false]
  cases change header with
  | none => rfl
  | some header' => simp only [historyRewriteHeader_whole _ _ _ _ hclean.landed]

/-- A header update of a slot without a file does nothing. -/
theorem historyUpdateHeader_no_file (change : HistoryHeader → Option HistoryHeader)
    {dev : HistoryDevice K} {slot : UInt8} (faults : UpdateFaults)
    (hfile : dev.sd (historyBuildPath slot) = none) :
    (historyUpdateHeader change dev slot faults).1 = dev := by
  rcases historyUpdateHeader_cases change dev slot faults with hsame | ⟨file, _, hsome, _⟩
  · exact hsame
  · rw [hfile] at hsome
    cases hsome

/-! ### The refinement -/

/-- A header that counts the messages of a log, with the mark of the log. -/
structure HistoryHeader.Counts (header : HistoryHeader) (chat : ChatLog) : Prop where
  magic : header.magic = historyMagic
  msgCount : header.msgCount.toNat = chat.messages.length
  unreadCount : header.unreadCount.toNat = chat.unread
  lastDelivered : header.lastDeliveredIdx = chat.lastDelivered

/-- The file of a slot stores a log: there is none without messages, else it is the header
and exactly the records of the messages. -/
def StoresLog (H : HistoryPrimitives K) (dev : HistoryDevice K) (slot : UInt8) (chat : ChatLog) :
    Prop :=
  (dev.sd (historyBuildPath slot) = none ∧ chat = .empty) ∨
    ∃ header : HistoryHeader, header.Counts chat ∧ chat.messages ≠ [] ∧
      dev.sd (historyBuildPath slot) = some (historyFile H
        (historyDeriveKey H dev.masterKey slot) slot header chat.messages)

/-- The device runs and a slot's file stores a log. -/
structure Refines (H : HistoryPrimitives K) (slot : UInt8) (dev : HistoryDevice K)
    (chat : ChatLog) : Prop where
  initialized : dev.initialized = true
  unread_le : chat.unread ≤ chat.messages.length
  stores : StoresLog H dev slot chat

/-- The counters of a header after an append. -/
theorem HistoryHeader.Counts.append {header : HistoryHeader} {chat : ChatLog}
    (h : header.Counts chat) (msg : HistoryMessage) (hunread : chat.unread ≤ chat.messages.length)
    (hroom : (chat.append msg).messages.length < 65536) :
    (header.counted msg.direction).Counts (chat.append msg) := by
  have hroom' : chat.messages.length + 1 < 65536 := by
    simpa [ChatLog.append] using hroom
  have hsucc : ∀ w : UInt16, w.toNat + 1 < 65536 → (w + 1).toNat = w.toNat + 1 := by
    intro w hw
    rw [UInt16.toNat_add]
    exact Nat.mod_eq_of_lt hw
  refine ⟨h.magic, ?_, ?_, h.lastDelivered⟩
  · have hcount : (header.msgCount + 1).toNat = chat.messages.length + 1 := by
      rw [hsucc _ (by rw [h.msgCount]; exact hroom'), h.msgCount]
    simpa [HistoryHeader.counted, ChatLog.append] using hcount
  · by_cases hdirection : msg.direction = historyDirReceived
    · simp only [HistoryHeader.counted, ChatLog.append, hdirection, if_true]
      rw [hsucc _ (by rw [h.unreadCount]; omega), h.unreadCount]
    · simp only [HistoryHeader.counted, ChatLog.append, hdirection, if_false]
      exact h.unreadCount

/-- An append adds its message to the log. -/
theorem Refines.append {H : HistoryPrimitives K} {slot : UInt8} {dev : HistoryDevice K}
    {chat : ChatLog} (h : Refines H slot dev chat) (hslot : slot < 128) {msg : HistoryMessage}
    {faults : AppendFaults} (hclean : faults.Clean msg)
    (hroom : (chat.append msg).messages.length < 65536) :
    Refines H slot (smpHistoryAppend H dev slot msg faults).1 (chat.append msg) := by
  have hunread : (chat.append msg).unread ≤ (chat.append msg).messages.length := by
    have hle := h.unread_le
    simp only [ChatLog.append, List.length_append, List.length_singleton]
    split <;> omega
  have hmore : (chat.append msg).messages ≠ [] := by simp [ChatLog.append]
  rcases h.stores with ⟨hnone, rfl⟩ | ⟨header, hcounts, _, hfile⟩
  · obtain ⟨hafter, _⟩ := smpHistoryAppend_new H h.initialized hslot hclean.reaches
      (hclean.written_plaintext true _) (by rw [hnone, ite_self])
    have hcounts : (HistoryHeader.fresh slot).Counts .empty := ⟨rfl, rfl, rfl, rfl⟩
    refine ⟨hafter.initialized.trans h.initialized, hunread, Or.inr
      ⟨_, hcounts.append msg (Nat.le_refl _) hroom, hmore, ?_⟩⟩
    rw [hafter.file, hafter.masterKey]
    simp [historyFile, ChatLog.append, ChatLog.empty, historyRecords, HistoryHeader.counted,
      HistoryHeader.fresh]
  · obtain ⟨hafter, _⟩ := smpHistoryAppend_file H h.initialized hslot hclean.reaches hclean.openRead
      (hclean.written_plaintext false header.version) hfile hcounts.magic
    refine ⟨hafter.initialized.trans h.initialized, hunread, Or.inr
      ⟨_, hcounts.append msg h.unread_le hroom, hmore, ?_⟩⟩
    rw [hafter.file, hafter.masterKey]
    simp only [historyFile, ChatLog.append, historyRecords_append, historyRecords, Nat.zero_add,
      List.append_nil, hcounts.msgCount, HistoryHeader.counted]

/-- A change of the header that leaves its version and the messages. -/
theorem Refines.update {H : HistoryPrimitives K} {slot : UInt8} {dev : HistoryDevice K}
    {chat chat' : ChatLog} (h : Refines H slot dev chat) (hslot : slot < 128)
    {change : HistoryHeader → Option HistoryHeader} {faults : UpdateFaults}
    (hclean : faults.Clean) (hempty : chat = .empty → chat' = .empty)
    (hmessages : chat'.messages = chat.messages) (hunread : chat'.unread ≤ chat.unread)
    (hchange : ∀ header : HistoryHeader, header.Counts chat → chat.messages ≠ [] →
      ((change header).getD header).Counts chat' ∧
        ((change header).getD header).version = header.version) :
    Refines H slot (historyUpdateHeader change dev slot faults).1 chat' := by
  have hle : chat'.unread ≤ chat'.messages.length := by
    rw [hmessages]
    exact Nat.le_trans hunread h.unread_le
  rcases h.stores with ⟨hnone, hchat⟩ | ⟨header, hcounts, hmore, hfile⟩
  · rw [historyUpdateHeader_no_file change faults hnone]
    exact ⟨h.initialized, hle, Or.inl ⟨hnone, hempty hchat⟩⟩
  · obtain ⟨hcounts', hversion⟩ := hchange header hcounts hmore
    rw [historyUpdateHeader_file h.initialized hslot hclean hfile]
    cases hheader : change header with
    | none =>
      rw [hheader] at hcounts'
      refine ⟨h.initialized, hle, Or.inr ⟨header, hcounts', hmessages ▸ hmore, ?_⟩⟩
      rw [hmessages]
      exact hfile
    | some header' =>
      rw [hheader] at hcounts' hversion
      refine ⟨h.initialized, hle, Or.inr ⟨header', hcounts', hmessages ▸ hmore, ?_⟩⟩
      have hversion' : header'.version = header.version := hversion
      rw [historyFile, hversion', hmessages]
      exact Store.put_self _ _ _

/-- An operation on another slot leaves the file of a slot. -/
theorem Refines.of_frame {H : HistoryPrimitives K} {slot : UInt8} {dev dev' : HistoryDevice K}
    {chat : ChatLog} (h : Refines H slot dev chat)
    (hfile : dev'.sd (historyBuildPath slot) = dev.sd (historyBuildPath slot))
    (hkey : dev'.masterKey = dev.masterKey) (hinit : dev'.initialized = dev.initialized) :
    Refines H slot dev' chat := by
  refine ⟨hinit.trans h.initialized, h.unread_le, ?_⟩
  have hstores := h.stores
  rwa [StoresLog, ← hfile, ← hkey] at hstores

/-- An append to another slot. -/
theorem smpHistoryAppend_frame (H : HistoryPrimitives K) (dev : HistoryDevice K)
    {slot slot' : UInt8} (hne : slot' ≠ slot) (msg : HistoryMessage) (faults : AppendFaults) :
    (smpHistoryAppend H dev slot' msg faults).1.sd (historyBuildPath slot) =
        dev.sd (historyBuildPath slot) ∧
      (smpHistoryAppend H dev slot' msg faults).1.masterKey = dev.masterKey ∧
      (smpHistoryAppend H dev slot' msg faults).1.initialized = dev.initialized := by
  have hpath : historyBuildPath slot ≠ historyBuildPath slot' :=
    fun h => hne (historyBuildPath_inj.mp h).symm
  cases hseals : appendSeals dev slot' faults with
  | none =>
    rw [smpHistoryAppend_of_none H msg hseals]
    exact ⟨rfl, rfl, rfl⟩
  | some found =>
    obtain ⟨header, newFile⟩ := found
    rw [(smpHistoryAppend_of_some H msg hseals).2]
    exact ⟨historyWritePass_of_ne _ _ _ _ _ _ _ hpath, rfl, rfl⟩

/-- A header update of another slot. -/
theorem historyUpdateHeader_frame (change : HistoryHeader → Option HistoryHeader)
    (dev : HistoryDevice K) {slot slot' : UInt8} (hne : slot' ≠ slot) (faults : UpdateFaults) :
    (historyUpdateHeader change dev slot' faults).1.sd (historyBuildPath slot) =
        dev.sd (historyBuildPath slot) ∧
      (historyUpdateHeader change dev slot' faults).1.masterKey = dev.masterKey ∧
      (historyUpdateHeader change dev slot' faults).1.initialized = dev.initialized := by
  have hpath : historyBuildPath slot ≠ historyBuildPath slot' :=
    fun h => hne (historyBuildPath_inj.mp h).symm
  rcases historyUpdateHeader_cases change dev slot' faults with
    hsame | ⟨file, header', _, _, _, hput⟩
  · rw [hsame]
    exact ⟨rfl, rfl, rfl⟩
  · rw [hput]
    exact ⟨Store.put_of_ne _ _ hpath, rfl, rfl⟩

/-- Every operation without faults does to the file what it does to the log. -/
theorem Refines.step {H : HistoryPrimitives K} {slot : UInt8} {dev : HistoryDevice K}
    {chat : ChatLog} (h : Refines H slot dev chat) (hslot : slot < 128) {action : HistoryAction}
    (hclean : action.Clean) (hroom : (chat.step slot action).messages.length < 65536) :
    Refines H slot (dev.step H action) (chat.step slot action) := by
  cases action with
  | append slot' msg faults =>
    by_cases hsame : slot' = slot
    · subst hsame
      simp only [ChatLog.step, if_true] at hroom ⊢
      exact h.append hslot hclean hroom
    · simp only [ChatLog.step, hsame, if_false]
      obtain ⟨hfile, hkey, hinit⟩ := smpHistoryAppend_frame H dev hsame msg faults
      exact h.of_frame hfile hkey hinit
  | markRead slot' faults =>
    by_cases hsame : slot' = slot
    · subst hsame
      simp only [ChatLog.step, if_true]
      refine h.update hslot hclean (by rintro rfl; rfl) rfl (Nat.zero_le _) ?_
      intro header hcounts _
      exact ⟨⟨hcounts.magic, hcounts.msgCount, rfl, hcounts.lastDelivered⟩, rfl⟩
    · simp only [ChatLog.step, hsame, if_false]
      obtain ⟨hfile, hkey, hinit⟩ := historyUpdateHeader_frame
        (fun header => some { header with unreadCount := 0 }) dev hsame faults
      exact h.of_frame hfile hkey hinit
  | updateDelivered slot' msgIndex faults =>
    by_cases hsame : slot' = slot
    · subst hsame
      simp only [ChatLog.step, true_and]
      by_cases hrises : chat.messages ≠ [] ∧ msgIndex > chat.lastDelivered
      · rw [if_pos hrises]
        refine h.update hslot hclean (fun hempty => absurd (hempty ▸ rfl) hrises.1) rfl
          (Nat.le_refl _) ?_
        intro header hcounts _
        rw [if_pos (by rw [hcounts.lastDelivered]; exact hrises.2)]
        exact ⟨⟨hcounts.magic, hcounts.msgCount, hcounts.unreadCount, rfl⟩, rfl⟩
      · rw [if_neg hrises]
        refine h.update hslot hclean id rfl (Nat.le_refl _) ?_
        intro header hcounts hmore
        rw [if_neg (by rw [hcounts.lastDelivered]; exact fun hgt => hrises ⟨hmore, hgt⟩)]
        exact ⟨hcounts, rfl⟩
    · simp only [ChatLog.step, hsame, false_and, if_false]
      obtain ⟨hfile, hkey, hinit⟩ := historyUpdateHeader_frame
        (fun header => if msgIndex > header.lastDeliveredIdx then
          some { header with lastDeliveredIdx := msgIndex } else none) dev hsame faults
      exact h.of_frame hfile hkey hinit
  | init | delete | reboot => cases hclean

/-- A log only grows. -/
theorem ChatLog.length_le_step (slot : UInt8) (chat : ChatLog) (action : HistoryAction) :
    chat.messages.length ≤ (chat.step slot action).messages.length := by
  cases action with
  | append slot' msg faults =>
    rw [step]
    split
    · simp [append]
    · exact Nat.le_refl _
  | markRead slot' faults =>
    rw [step]
    split <;> exact Nat.le_refl _
  | updateDelivered slot' msgIndex faults =>
    rw [step]
    split <;> exact Nat.le_refl _
  | init | delete | reboot => exact Nat.le_refl _

/-- A run drops no message of the log. -/
theorem ChatLog.length_le_run (slot : UInt8) (chat : ChatLog) (actions : List HistoryAction) :
    chat.messages.length ≤ (runFrom (ChatLog.step slot) chat actions).messages.length := by
  induction actions generalizing chat with
  | nil => exact Nat.le_refl _
  | cons action actions ih => exact Nat.le_trans (chat.length_le_step slot action) (ih _)

/-- A run without faults does to the file what it does to the log. -/
theorem Refines.run {H : HistoryPrimitives K} {slot : UInt8} (hslot : slot < 128)
    {dev : HistoryDevice K} {chat : ChatLog} (h : Refines H slot dev chat)
    {actions : List HistoryAction} (hclean : ∀ action ∈ actions, action.Clean)
    (hfew : (runFrom (ChatLog.step slot) chat actions).messages.length < 65536) :
    Refines H slot (runFrom (HistoryDevice.step H) dev actions)
      (runFrom (ChatLog.step slot) chat actions) := by
  induction actions generalizing dev chat with
  | nil => exact h
  | cons action actions ih =>
    have hgrows := ChatLog.length_le_run slot (chat.step slot action) actions
    exact ih (h.step hslot (hclean action List.mem_cons_self) (Nat.lt_of_le_of_lt hgrows hfew))
      (fun a ha => hclean a (List.mem_cons_of_mem _ ha)) hfew

/-! ### What is loaded -/

/-- The shown message has the entry of the message. -/
theorem HistoryMessage.entry_shown (header : HistoryHeader) (msgIdx : UInt16)
    (msg : HistoryMessage) : (msg.shown header msgIdx).entry = msg.entry := by
  have hle := msg.storedLen_le
  have hword : (UInt16.ofNat msg.storedLen).toNat = msg.storedLen :=
    UInt16.toNat_ofNat_of_lt (by rw [UInt16.size]; omega)
  have hlen : (msg.shown header msgIdx).storedLen = msg.storedLen := by
    change min (UInt16.ofNat msg.storedLen).toNat historyMaxText = _
    rw [hword]
    exact Nat.min_eq_left hle
  rw [entry, entry, hlen]
  congr 1
  apply List.map_congr_left
  intro i hi
  have hi' : i < msg.storedLen := by simpa using hi
  simp only [shown, Nat.zero_add, hi', if_true]

/-- The shown messages of a log have the entries of the log. -/
theorem map_entry_historyShown (header : HistoryHeader) (index : ℕ) (log : List HistoryMessage) :
    (historyShown header index log).map HistoryMessage.entry = log.map HistoryMessage.entry := by
  induction log generalizing index with
  | nil => rfl
  | cons msg log ih => rw [historyShown, List.map_cons, List.map_cons, msg.entry_shown, ih]

/-- The last entries of a mapped list. -/
theorem rtake_map {α β : Type*} (f : α → β) (l : List α) (n : ℕ) :
    (l.rtake n).map f = (l.map f).rtake n := by
  rw [List.rtake, List.rtake, List.map_drop, List.length_map]

/-- A load of a slot that stores a log returns its last entries. -/
theorem Refines.load {H : HistoryOpening K} {slot : UInt8} (hslot : slot < 128)
    {dev : HistoryDevice K} {chat : ChatLog} (h : Refines H.toHistoryPrimitives slot dev chat)
    {count : ℤ} (hmax : count ≤ historyMaxLoad) {faults : LoadFaults}
    (hclean : faults.Clean ((dev.sd (historyBuildPath slot)).getD []).length) (heap : Mem) :
    (smpHistoryLoadRecent H dev slot count faults heap).2.map HistoryMessage.entry =
        (chat.messages.map HistoryMessage.entry).rtake count.toNat ∧
      (0 ≤ count → (smpHistoryLoadRecent H dev slot count faults heap).1 = .ok) := by
  rcases h.stores with ⟨hnone, rfl⟩ | ⟨header, hcounts, _, hfile⟩
  · have hload : smpHistoryLoadRecent H dev slot count faults heap = (.ok, []) := by
      simp only [smpHistoryLoadRecent, h.initialized, hclean.sdAvailable, UInt8.not_le.mpr hslot,
        hclean.deriveKey, hclean.lock, hnone, ite_self, Bool.not_true, Bool.false_eq_true, if_false]
    rw [hload]
    exact ⟨by simp [ChatLog.empty, List.rtake], fun _ => rfl⟩
  · rw [hfile, Option.getD_some] at hclean
    by_cases hneg : count < 0
    · rw [smpHistoryLoadRecent_neg H h.initialized hslot hfile rfl hcounts.msgCount hclean hneg heap,
        Int.toNat_of_nonpos (by omega)]
      exact ⟨by simp [List.rtake], fun hpos => absurd hneg (by omega)⟩
    · obtain ⟨n, rfl⟩ := Int.eq_ofNat_of_zero_le (by omega : 0 ≤ count)
      rw [smpHistoryLoadRecent_records H h.initialized hslot hfile (List.append_nil _).symm
        hcounts.msgCount hclean (by exact_mod_cast hmax) heap]
      exact ⟨by rw [rtake_map, map_entry_historyShown, Int.toNat_natCast], fun _ => rfl⟩

/-- The history store refines a list of messages. After any run of appends, marks as read and
delivery marks without faults, the file of a slot is absent or the header and exactly the
records of the messages appended, its counters are the number of messages and of received
ones not yet read, and a load of at most `HISTORY_MAX_LOAD` returns the last of them. -/
theorem history_refines_log (H : HistoryOpening K) {dev : HistoryDevice K} {slot : UInt8}
    (hinit : dev.initialized = true) (hslot : slot < 128)
    (hnew : dev.sd (historyBuildPath slot) = none) {actions : List HistoryAction}
    (hclean : ∀ action ∈ actions, action.Clean)
    (hfew : (runFrom (ChatLog.step slot) .empty actions).messages.length < 65536) :
    let dev' := runFrom (HistoryDevice.step H.toHistoryPrimitives) dev actions
    let chat := runFrom (ChatLog.step slot) .empty actions
    StoresLog H.toHistoryPrimitives dev' slot chat ∧
      smpHistoryGetCounts dev' slot ⟨true, true, true⟩ =
        (.ok, some (UInt16.ofNat chat.messages.length, UInt16.ofNat chat.unread)) ∧
      ∀ (count : ℤ) (faults : LoadFaults) (heap : Mem), count ≤ historyMaxLoad →
        faults.Clean ((dev'.sd (historyBuildPath slot)).getD []).length →
        (smpHistoryLoadRecent H dev' slot count faults heap).2.map HistoryMessage.entry =
            (chat.messages.map HistoryMessage.entry).rtake count.toNat ∧
          (0 ≤ count → (smpHistoryLoadRecent H dev' slot count faults heap).1 = .ok) := by
  intro dev' chat
  have hstart : Refines H.toHistoryPrimitives slot dev .empty :=
    ⟨hinit, Nat.le_refl _, Or.inl ⟨hnew, rfl⟩⟩
  have hend : Refines H.toHistoryPrimitives slot dev' chat := hstart.run hslot hclean hfew
  refine ⟨hend.stores, ?_, fun count faults heap hmax hread => hend.load hslot hmax hread heap⟩
  have hcounts : ∀ header : HistoryHeader, header.Counts chat →
      (header.msgCount, header.unreadCount) =
        (UInt16.ofNat chat.messages.length, UInt16.ofNat chat.unread) := by
    intro header h
    rw [← h.msgCount, ← h.unreadCount, UInt16.ofNat_toNat, UInt16.ofNat_toNat]
  rcases hend.stores with ⟨hnone, hempty⟩ | ⟨header, h, _, hfile⟩
  · simp only [smpHistoryGetCounts, hend.initialized, UInt8.not_le.mpr hslot, hnone, ite_self,
      Bool.not_true, Bool.false_eq_true, if_false, hempty]
    rfl
  · rw [historyFile] at hfile
    simp only [smpHistoryGetCounts, hend.initialized, UInt8.not_le.mpr hslot, hfile, if_true,
      HistoryHeader.read_encode_append, Bool.not_true, Bool.false_eq_true, if_false, hcounts _ h]

/-- Symbolic opening: the tag of every record is zero. -/
def symbolicOpening : HistoryOpening (List UInt8 × List UInt8) where
  toHistoryPrimitives := symbolicHistory
  gcmDecrypt _ _ ciphertext tag := if tag = zeroBytes 16 then some ciphertext else none
  keystream _ _ _ := 0
  gcmDecrypt_gcmEncrypt _ _ _ := if_pos rfl
  gcmDecrypt_keystream := by
    intro _ _ ciphertext tag plaintext h
    by_cases htag : tag = zeroBytes 16
    · rw [if_pos htag, Option.some.injEq] at h
      apply List.ext_getElem <;> simp [← h]
    · rw [if_neg htag] at h
      cases h

/-- The small message goes through without faults. -/
theorem AppendFaults.none_clean (b : UInt8) : AppendFaults.none.Clean (oneByteMessage b) where
  reaches := ⟨rfl, rfl, fun _ => rfl, rfl, rfl, rfl⟩
  openRead := rfl
  written newFile := ⟨fun _ => by decide, fun _ => rfl, by decide, by decide,
    by change 12 + min 1 4096 ≤ 65535; decide, by decide, rfl, by decide⟩

/-- Two messages, the first of them read. -/
theorem history_refines_log_two_messages :
    StoresLog symbolicHistory (runFrom (HistoryDevice.step symbolicHistory)
        { HistoryDevice.blank with initialized := true }
        [.append 0 (oneByteMessage 65) .none, .markRead 0 ⟨true, true, true, true, 32⟩,
          .append 0 (oneByteMessage 66) .none]) 0
      ⟨[oneByteMessage 65, oneByteMessage 66], 0, 0⟩ :=
  (history_refines_log symbolicOpening (by rfl) (by decide) (by rfl)
    (by
      intro action haction
      simp only [List.mem_cons, List.not_mem_nil, or_false] at haction
      rcases haction with rfl | rfl | rfl
      · exact AppendFaults.none_clean 65
      · exact ⟨rfl, rfl, rfl, rfl, by decide⟩
      · exact AppendFaults.none_clean 66)
    (by decide)).1

end SimpleGo
