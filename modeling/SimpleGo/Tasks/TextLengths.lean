import SimpleGo.Agent.Messages
import SimpleGo.History.LoadSafety
import SimpleGo.Lib.Strings
import SimpleGo.Tasks.MessageStatus

/-!
# The text of a history message

Every place that copies a text into a `history_message_t`: a chat message is received, a message
is typed, a bubble is added to the cache of the chat, and the history is loaded. Each copies some
bytes and writes a terminator behind them; `text` has `HISTORY_MAX_TEXT` bytes.
-/

namespace SimpleGo

open Lib

variable {K : Type}

/-! ### Copied texts -/

/-- `memcpy(text, src, len)` and `text[len] = '\0'`: the indices written, with their bytes. -/
def textWrites (src : Mem) (len : ℕ) : List (ℕ × UInt8) :=
  (List.range len).map (fun i => (i, src i)) ++ [(len, 0)]

/-- The last byte written is a terminator in the array. -/
def Terminated (writes : List (ℕ × UInt8)) : Prop :=
  ∃ i < historyMaxText, writes.getLast? = some (i, 0)

/-- `extract_chat_text`, up to the message for the history. -/
def extractChatTextWrites (body : List UInt8) (jsonAlloc : Bool) (timestamp : Int64) :
    List (List (ℕ × UInt8)) :=
  match if jsonAlloc then chatText body else none with
  | none => []
  | some text =>
    let histMsg := historyMessageOf historyDirReceived 0 timestamp text
    [textWrites histMsg.text histMsg.textLen.toNat]

/-- `app_process_keyboard_queue` for a typed message that is stored with this status. -/
def processKeyboardWrites (kbdMsg : Bytes 256) (status : UInt8) (timestamp : Int64) :
    List (List (ℕ × UInt8)) :=
  let histMsg := historyMessageOf historyDirSent status timestamp (cString kbdMsg)
  [textWrites histMsg.text histMsg.textLen.toNat]

/-- `ui_chat_add_message` into the cache; here the text is cut one byte earlier. -/
def uiChatAddMessageWrites (text : List UInt8) : List (List (ℕ × UInt8)) :=
  [textWrites (memOf text fun _ => 0) (min text.length (historyMaxText - 1))]

/-- `smp_history_load_recent`: the texts of the loaded messages. -/
def smpHistoryLoadRecentWrites (H : HistoryOpening K) (dev : HistoryDevice K) (slot : UInt8)
    (count : ℤ) (faults : LoadFaults) (heap : Mem) : List (List (ℕ × UInt8)) :=
  (smpHistoryLoadRecent H dev slot count faults heap).2.map fun m =>
    textWrites m.text m.textLen.toNat

/-- Where the text of a `history_message_t` comes from. -/
inductive TextSource (K : Type) where
  | chat (body : List UInt8) (jsonAlloc : Bool) (timestamp : Int64)
  | typed (kbdMsg : Bytes 256) (status : UInt8) (timestamp : Int64)
  | bubble (text : List UInt8)
  | load (dev : HistoryDevice K) (slot : UInt8) (count : ℤ) (faults : LoadFaults) (heap : Mem)

/-- The texts that are copied. -/
def TextSource.writes (H : HistoryOpening K) : TextSource K → List (List (ℕ × UInt8))
  | .chat body jsonAlloc timestamp => extractChatTextWrites body jsonAlloc timestamp
  | .typed kbdMsg status timestamp => processKeyboardWrites kbdMsg status timestamp
  | .bubble text => uiChatAddMessageWrites text
  | .load dev slot count faults heap => smpHistoryLoadRecentWrites H dev slot count faults heap

/-- The records that a load reads and that authenticate declare texts shorter than the array. -/
def LoadTextsShort (H : HistoryOpening K) (dev : HistoryDevice K) (slot : UInt8) (count : ℤ)
    (faults : LoadFaults) : Prop :=
  ∀ content header start, LoadReaches dev slot faults content header →
    let file := content.take faults.readable
    let key := historyDeriveKey H.toHistoryPrimitives dev.masterKey slot
    let startIdx := historyStartIdx header.msgCount.toNat count
    let toLoad := min (header.msgCount.toNat - startIdx) count
    historySkip file startIdx.toNat historyHeaderSize = some start →
      ∀ off ∈ (historyReadRecords file start (toLoad * 16041 % 4294967296).toNat
        (min toLoad.toNat historyMaxLoad) 0).1, ∀ plaintext,
        RecordOpens H key file (start + off) plaintext →
          historyTextLength header (memOf plaintext fun i => fileMem file (start + off + 14 + i)) <
            historyMaxText

/-- The condition on where a text comes from: a received text, with its length in 16 bits, and
the text lengths declared by stored records are below the size of the array. -/
def TextSource.Short (H : HistoryOpening K) : TextSource K → Prop
  | .chat body jsonAlloc _ =>
    ∀ text, jsonAlloc = true → chatText body = some text → text.length % 65536 < historyMaxText
  | .typed .. | .bubble _ => True
  | .load dev slot count faults _ => LoadTextsShort H dev slot count faults

/-! ### One text -/

/-- A copied text is terminated in the array exactly when it is shorter. -/
theorem terminated_textWrites (src : Mem) (len : ℕ) :
    Terminated (textWrites src len) ↔ len < historyMaxText := by
  simp [Terminated, textWrites]

/-- The copied part of a C string: its length in 16 bits, cut at `HISTORY_MAX_TEXT`. -/
theorem historyMessageOf_textLen (direction status : UInt8) (timestamp : Int64)
    (text : List UInt8) : (historyMessageOf direction status timestamp text).textLen.toNat =
      min (text.length % 65536) historyMaxText := by
  have hmod : (UInt16.ofNat text.length).toNat = text.length % 65536 := UInt16.toNat_ofNat'
  have hle : min (text.length % 65536) historyMaxText ≤ 4096 := Nat.min_le_right ..
  rw [historyMessageOf, hmod]
  exact UInt16.toNat_ofNat_of_lt (Nat.lt_of_le_of_lt hle (by decide))

/-- The copied part of a record: the declared length, cut at `HISTORY_MAX_TEXT`. -/
theorem historyParse_textLen_eq (header : HistoryHeader) (msgIdx : UInt16) (plaintext : Mem) :
    (historyParse header msgIdx plaintext).textLen.toNat =
      min (historyTextLength header plaintext) historyMaxText := by
  have hle : min (historyTextLength header plaintext) historyMaxText ≤ 4096 :=
    Nat.min_le_right ..
  exact UInt16.toNat_ofNat_of_lt (Nat.lt_of_le_of_lt hle (by decide))

/-- The texts of received messages. -/
theorem extractChatTextWrites_terminated (body : List UInt8) (jsonAlloc : Bool)
    (timestamp : Int64) :
    (∀ writes ∈ extractChatTextWrites body jsonAlloc timestamp, Terminated writes) ↔
      ∀ text, jsonAlloc = true → chatText body = some text →
        text.length % 65536 < historyMaxText := by
  unfold extractChatTextWrites
  cases jsonAlloc with
  | false => simp
  | true =>
    cases chatText body with
    | none => simp
    | some text =>
      simp only [if_true, List.mem_singleton, forall_eq, terminated_textWrites,
        historyMessageOf_textLen, Option.some.injEq, forall_eq', forall_const]
      omega

/-! ### The loaded texts -/

section Load

variable (H : HistoryOpening K) (key : K) (header : HistoryHeader)

/-- The text length of an opened record does not depend on its index. -/
theorem historyOpenRecord_textLen (rawBuf : Mem) (i j : UInt16) (off : ℕ) :
    (historyOpenRecord H key header rawBuf i off).map (·.textLen) =
      (historyOpenRecord H key header rawBuf j off).map (·.textLen) := by
  unfold historyOpenRecord
  dsimp only
  split
  · rfl
  · split <;> rfl

/-- The texts of the opened records are short exactly when each record's is. -/
theorem historyOpenRecords_short_iff (rawBuf : Mem) (index : ℕ) (offsets : List ℕ) :
    (∀ msg ∈ historyOpenRecords H key header rawBuf index offsets,
        msg.textLen.toNat < historyMaxText) ↔
      ∀ off ∈ offsets, ∀ msg, historyOpenRecord H key header rawBuf 0 off = some msg →
        msg.textLen.toNat < historyMaxText := by
  induction offsets generalizing index with
  | nil => simp [historyOpenRecords]
  | cons off offsets ih =>
    rw [historyOpenRecords, List.forall_mem_cons, ← ih (index + 1)]
    have hsame := historyOpenRecord_textLen H key header rawBuf (UInt16.ofNat index) 0 off
    cases hindex : historyOpenRecord H key header rawBuf (UInt16.ofNat index) off with
    | none =>
      rw [hindex, Option.map_none, eq_comm, Option.map_eq_none_iff] at hsame
      simp [hsame]
    | some msg =>
      rw [hindex, Option.map_some, eq_comm, Option.map_eq_some_iff] at hsame
      obtain ⟨msg', hopen, hlen⟩ := hsame
      simp only [hopen, Option.some.injEq, forall_eq', hlen, List.forall_mem_cons]

/-- The texts of one file, from the seek behind its header on. -/
theorem historyLoadFrom_short_iff (file : List UInt8) (startIdx toLoad : ℤ) (heap : Mem) :
    (∀ msg ∈ (historyLoadFrom H key header file startIdx toLoad heap).2,
        msg.textLen.toNat < historyMaxText) ↔
      ∀ start, historySkip file startIdx.toNat historyHeaderSize = some start →
        ∀ off ∈ (historyReadRecords file start (toLoad * 16041 % 4294967296).toNat
          (min toLoad.toNat historyMaxLoad) 0).1, ∀ plaintext,
          RecordOpens H key file (start + off) plaintext →
            historyTextLength header
              (memOf plaintext fun i => fileMem file (start + off + 14 + i)) < historyMaxText := by
  rw [historyLoadFrom]
  cases hskip : historySkip file startIdx.toNat historyHeaderSize with
  | none => simp
  | some start =>
    simp only [Option.some.injEq, forall_eq']
    rw [historyOpenRecords_short_iff]
    refine forall₂_congr fun off hoff => ?_
    change (∀ msg, historyOpenRecord H key header (loadedBuf file start _ heap) 0 off = some msg →
      msg.textLen.toNat < historyMaxText) ↔ _
    simp only [historyOpenRecord_loadedBuf H key header hoff]
    constructor
    · intro h plaintext hopens
      have hshort := h _ ⟨plaintext, hopens, rfl⟩
      obtain ⟨hraw, -⟩ := holdsRecord_loadedBuf heap hoff (Nat.le_trans (by decide) hopens.whole)
      rw [historyParse_textLen_eq, hraw.textLength header plaintext hopens.whole] at hshort
      omega
    · rintro h msg ⟨plaintext, hopens, rfl⟩
      have hshort := h plaintext hopens
      obtain ⟨hraw, -⟩ := holdsRecord_loadedBuf heap hoff (Nat.le_trans (by decide) hopens.whole)
      rw [historyParse_textLen_eq, hraw.textLength header plaintext hopens.whole]
      omega

/-- The texts of a load. -/
theorem smpHistoryLoadRecentWrites_terminated (dev : HistoryDevice K) (slot : UInt8) (count : ℤ)
    (faults : LoadFaults) (heap : Mem) :
    (∀ writes ∈ smpHistoryLoadRecentWrites H dev slot count faults heap, Terminated writes) ↔
      LoadTextsShort H dev slot count faults := by
  unfold smpHistoryLoadRecentWrites
  rw [List.forall_mem_map]
  simp only [terminated_textWrites]
  have hval := smpHistoryLoadRecentLogged_val H dev slot count faults heap
  rcases smpHistoryLoadRecentLogged_cases H dev slot count faults heap with
    ⟨content, header, hreaches, hload⟩ | ⟨hnot, err, hload⟩
  · rw [← hval, hload, historyLoadFromLogged_val, historyLoadFrom_short_iff]
    constructor
    · intro hshort content' header' start hreaches'
      obtain rfl := Option.some.inj (hreaches.file.symm.trans hreaches'.file)
      obtain rfl := Option.some.inj (hreaches.readHeader.symm.trans hreaches'.readHeader)
      exact hshort start
    · exact fun hshort start => hshort content header start hreaches
  · rw [← hval, hload]
    exact iff_of_true nofun fun content header _ hreaches =>
      absurd hreaches (hnot content header)

end Load

/-- Every copied text is terminated in the array exactly when the texts are short. -/
theorem text_terminated_iff (H : HistoryOpening K) (source : TextSource K) :
    (∀ writes ∈ source.writes H, Terminated writes) ↔ source.Short H := by
  cases source with
  | chat body jsonAlloc timestamp =>
    exact extractChatTextWrites_terminated body jsonAlloc timestamp
  | typed kbdMsg status timestamp =>
    have hlen := cString_length_le kbdMsg
    have hmax : historyMaxText = 4096 := rfl
    refine iff_of_true (fun writes hwrites => ?_) trivial
    obtain rfl := List.mem_singleton.mp hwrites
    rw [terminated_textWrites, historyMessageOf_textLen]
    omega
  | bubble text =>
    have hmax : historyMaxText = 4096 := rfl
    refine iff_of_true (fun writes hwrites => ?_) trivial
    obtain rfl := List.mem_singleton.mp hwrites
    rw [terminated_textWrites]
    omega
  | load dev slot count faults heap =>
    exact smpHistoryLoadRecentWrites_terminated H dev slot count faults heap

/-- The body of a chat message whose JSON is one text. -/
def chatBody (text : List UInt8) : List UInt8 :=
  0x4D :: List.replicate 9 0 ++ 0x4D :: (textKey ++ (text ++ [0x22]))

/-- Its text, when that is free of quotes and zero bytes. -/
theorem chatText_chatBody {text : List UInt8} (h : ∀ c ∈ text, c ≠ 0 ∧ c ≠ 0x22) :
    chatText (chatBody text) = some text := by
  have htag : hasInnerTag (chatBody text) 0x4D = true := by
    simp [hasInnerTag, innerOffset, chatBody]
  have hjson : (chatBody text).drop (innerOffset (chatBody text) + 1) =
      textKey ++ (text ++ [0x22]) := rfl
  have hwhole : (textKey ++ (text ++ [0x22])).takeWhile (· ≠ 0) = textKey ++ (text ++ [0x22]) := by
    rw [List.takeWhile_eq_self_iff]
    intro c hc
    simp only [List.mem_append, List.mem_singleton] at hc
    rcases hc with hc | hc | rfl
    · have hkey : ∀ c ∈ textKey, c ≠ 0 := by simp [textKey]
      exact decide_eq_true (hkey c hc)
    · exact decide_eq_true (h c hc).1
    · rfl
  have hfound : findBehind textKey (textKey ++ (text ++ [0x22])) = some (text ++ [0x22]) := rfl
  rw [chatText, if_pos htag, hjson, jsonText, hwhole, hfound, Option.bind_some,
    if_pos (by simp), List.takeWhile_append_of_pos fun c hc => decide_eq_true (h c hc).2]
  simp

/-- A text that is not short is terminated behind the array. -/
theorem chatBody_not_terminated (H : HistoryOpening K) {text : List UInt8}
    (h : ∀ c ∈ text, c ≠ 0 ∧ c ≠ 0x22) (hlong : historyMaxText ≤ text.length % 65536)
    (timestamp : Int64) :
    ¬ ∀ writes ∈ TextSource.writes H (.chat (chatBody text) true timestamp),
      Terminated writes := by
  intro hall
  have hshort := (extractChatTextWrites_terminated _ _ _).mp hall
  exact absurd (hshort text rfl (chatText_chatBody h)) (Nat.not_lt.mpr hlong)

/-- A received text of 4096 bytes: its terminator is written behind the array. -/
theorem chat_text_terminator_outside :
    ¬ ∀ writes ∈ TextSource.writes symbolicOpening
        (.chat (chatBody (List.replicate 4096 0x61)) true 0), Terminated writes := by
  apply chatBody_not_terminated symbolicOpening
  · intro c hc
    rw [(List.mem_replicate.mp hc).2]
    decide
  · rw [List.length_replicate]
    decide

end SimpleGo
