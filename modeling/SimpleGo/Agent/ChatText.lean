import Mathlib.Data.List.GetD
import Mathlib.Data.List.TakeWhile
import SimpleGo.Agent.Messages
import SimpleGo.Lib.Json
import SimpleGo.Peer.AgentMessage

/-!
# The text of a chat message

`build_chat_message` puts the text into a JSON template with `%s`, and `extract_chat_text` takes it
from behind `"text":"` up to the next quote. Neither escapes or unescapes anything: a text is found
again when it has no quote, and what is sent is JSON when the text can stand between two quotes
as it is.
-/

namespace SimpleGo

open Lib Lib.Json

/-- A text that can be sent: at most 255 bytes, none of them zero. -/
structure ChatText where
  bytes : List UInt8
  short : bytes.length ≤ 255
  noNul : 0 ∉ bytes

/-- The template before the text. -/
def chatOpening : List UInt8 :=
  asciiBytes "\x7b\"v\":\"1\",\"event\":\"x.msg.new\",\"params\":\x7b\"content\":\x7b" ++
    asciiBytes "\"type\":\"text\",\"text\":\""

/-- The template behind the text. -/
def chatClosing : List UInt8 := asciiBytes "\"\x7d\x7d\x7d"

/-- `json_buf` of `build_chat_message`. -/
def chatJson (message : List UInt8) : List UInt8 := chatOpening ++ message ++ chatClosing

/-- `build_chat_message`, with the number and the hash it takes from the handshake state. -/
def buildChatMessage (msgId : UInt64) (prevMsgHash : Bytes 32) (text : ChatText) : List UInt8 :=
  agentMessage msgId prevMsgHash (AgentSend.chat text.bytes).aMessage

/-- The payload is the tag and the JSON. -/
theorem chat_aMessage (message : List UInt8) :
    (AgentSend.chat message).aMessage = 0x4D :: chatJson message := by
  rw [chatJson, chatOpening, chatClosing, AgentSend.aMessage, List.cons_append, List.cons_append,
    List.cons_append]

/-- The buffer of 400 bytes holds the JSON, so that `snprintf` does not cut it. -/
theorem chatJson_length_lt (text : ChatText) : (chatJson text.bytes).length < 400 := by
  have hopening : chatOpening.length = 72 := by decide
  have hclosing : chatClosing.length = 4 := by decide
  have hshort := text.short
  rw [chatJson, List.length_append, List.length_append, hopening, hclosing]
  omega

/-! ### The text that is found -/

/-- In an agent message the payload is the inner message. -/
theorem innerOffset_agentMessage (msgId : UInt64) (hash : Bytes 32) (aMessage : List UInt8) :
    ∃ header : List UInt8, agentMessage msgId hash aMessage = header ++ aMessage ∧
      innerOffset (agentMessage msgId hash aMessage) = header.length ∧ 10 ≤ header.length ∧
      header.getD 0 0 = 0x4D := by
  refine ⟨0x4D :: Lib.be64 msgId ++ (if msgId = 1 then [0] else 32 :: hash.toList), rfl, ?_⟩
  by_cases hone : msgId = 1
  · simp only [innerOffset, agentMessage, hone, if_true]
    exact ⟨rfl, by decide, rfl⟩
  · simp only [innerOffset, agentMessage, hone, if_false]
    refine ⟨?_, ?_, rfl⟩
    · simp [Lib.be64]
    · simp [Lib.be64]

/-- A payload with the tag `M` is read as JSON. -/
theorem chatText_agentMessage (msgId : UInt64) (hash : Bytes 32) (json : List UInt8) :
    chatText (agentMessage msgId hash (0x4D :: json)) = jsonText json := by
  obtain ⟨header, heq, hoffset, hlong, htag⟩ :=
    innerOffset_agentMessage msgId hash (0x4D :: json)
  have hlen : (agentMessage msgId hash (0x4D :: json)).length =
      header.length + (json.length + 1) := by
    rw [heq, List.length_append, List.length_cons]
  have hfirst : (agentMessage msgId hash (0x4D :: json)).getD 0 0 = 0x4D := by
    rw [heq, List.getD_append _ _ _ _ (by omega), htag]
  have hinner : (agentMessage msgId hash (0x4D :: json)).getD header.length 0 = 0x4D := by
    rw [heq, List.getD_append_right _ _ _ _ (Nat.le_refl _), Nat.sub_self]
    rfl
  have htagged : hasInnerTag (agentMessage msgId hash (0x4D :: json)) 0x4D = true := by
    simp only [hasInnerTag, hoffset, hfirst, hinner, hlen, Bool.and_eq_true, decide_eq_true_eq,
      beq_self_eq_true, and_true]
    omega
  have hdrop : (agentMessage msgId hash (0x4D :: json)).drop (header.length + 1) = json := by
    rw [heq, ← List.drop_drop, List.drop_left]
    rfl
  rw [chatText, if_pos htagged, hoffset, hdrop]

/-- The key is found at the end of the opening, whatever follows. -/
theorem findBehind_chatOpening (rest : List UInt8) :
    findBehind textKey (chatOpening ++ rest) = some rest := rfl

/-- The bytes before the first quote of a list in front of a quote. -/
theorem takeWhile_quote (l rest : List UInt8) :
    (l ++ 0x22 :: rest).takeWhile (· ≠ 0x22) = l.takeWhile (· ≠ 0x22) := by
  induction l with
  | nil => rfl
  | cons b l ih =>
    rw [List.cons_append, List.takeWhile_cons, List.takeWhile_cons, ih]

set_option maxRecDepth 8192 in
/-- The JSON has no zero byte. -/
theorem chatJson_noNul (text : ChatText) : (chatJson text.bytes).takeWhile (· ≠ 0) =
    chatJson text.bytes := by
  rw [List.takeWhile_eq_self_iff]
  intro b hb
  have hopening : ∀ c ∈ chatOpening, c ≠ 0 := by decide
  have hclosing : ∀ c ∈ chatClosing, c ≠ 0 := by decide
  have hne : b ≠ 0 := by
    rw [chatJson, List.mem_append, List.mem_append] at hb
    rcases hb with (h | h) | h
    · exact hopening b h
    · rintro rfl
      exact text.noNul h
    · exact hclosing b h
  exact decide_eq_true hne

/-- The text that is found ends at its first quote. -/
theorem jsonText_chatJson (text : ChatText) :
    jsonText (chatJson text.bytes) = some (text.bytes.takeWhile (· ≠ 0x22)) := by
  rw [jsonText, chatJson_noNul, chatJson, List.append_assoc, findBehind_chatOpening,
    Option.bind_some]
  have hclosing : chatClosing = 0x22 :: [0x7D, 0x7D, 0x7D] := by decide
  rw [hclosing, takeWhile_quote, if_pos]
  exact List.mem_append_right _ List.mem_cons_self

/-- What a chat message leaves at its receiver. -/
theorem extractChatText_buildChatMessage (msgId : UInt64) (hash : Bytes 32) (text : ChatText) :
    extractChatText (buildChatMessage msgId hash text) true =
      [.notifyUi (text.bytes.takeWhile (· ≠ 0x22)),
        .historyAppend ((text.bytes.takeWhile (· ≠ 0x22)).take historyMaxText)] := by
  apply extractChatText_stores
  rw [buildChatMessage, chat_aMessage, chatText_agentMessage, jsonText_chatJson]

/-! ### The JSON that is sent -/

/-- The opening leads into the text, inside three objects. -/
theorem run_chatOpening :
    run ⟨.value, []⟩ chatOpening =
      some ⟨.string false .plain, [.object, .object, .object]⟩ := by
  decide

/-- The closing completes the JSON exactly when the text ends between two characters. -/
theorem complete_chatClosing (mode : StringMode) :
    (run ⟨.string false mode, [.object, .object, .object]⟩ chatClosing).any Reader.complete = true ↔
      mode = .plain := by
  cases mode with
  | plain => decide
  | escape => decide
  | hex more => revert more; decide
  | utf8 mode => cases mode <;> decide

/-- Around a text without quotes the template gives JSON when the text consists of characters. -/
theorem wellFormed_chatJson_iff {message : List UInt8} (h : 0x22 ∉ message) :
    WellFormed (chatJson message) ↔ StringChars message := by
  rw [WellFormed, chatJson, List.append_assoc, run_append, run_chatOpening, Option.bind_some,
    run_append, run_string false .plain _ h, ← stringRun_iff]
  cases hrun : stringRun .plain message with
  | none => exact ⟨nofun, nofun⟩
  | some mode =>
    rw [Option.map_some, Option.bind_some, complete_chatClosing, Option.some.injEq]

/-- A chat text is found again as it was, and what is sent is JSON, exactly when the text has no
quote and can stand between two quotes as it is. -/
theorem chat_text_survives_iff (msgId : UInt64) (hash : Bytes 32) (text : ChatText) :
    (extractChatText (buildChatMessage msgId hash text) true =
        [.notifyUi text.bytes, .historyAppend text.bytes] ∧
      WellFormed (chatJson text.bytes)) ↔
    (0x22 ∉ text.bytes ∧ StringChars text.bytes) := by
  have hshort : text.bytes.length ≤ historyMaxText := Nat.le_trans text.short (by decide)
  have hfound : extractChatText (buildChatMessage msgId hash text) true =
      [.notifyUi text.bytes, .historyAppend text.bytes] ↔ 0x22 ∉ text.bytes := by
    rw [extractChatText_buildChatMessage]
    constructor
    · intro h hquote
      have htext : text.bytes.takeWhile (· ≠ 0x22) = text.bytes :=
        MsgEffect.notifyUi.inj (List.cons.inj h).1
      have hne := List.takeWhile_eq_self_iff.1 htext 0x22 hquote
      exact absurd hne (by decide)
    · intro hquote
      have htext : text.bytes.takeWhile (· ≠ 0x22) = text.bytes := by
        rw [List.takeWhile_eq_self_iff]
        intro b hb
        refine decide_eq_true ?_
        rintro rfl
        exact hquote hb
      rw [htext, List.take_of_length_le hshort]
  rw [hfound]
  exact and_congr_right fun hquote => wellFormed_chatJson_iff hquote

/-- The text `a"b`. -/
def quotedText : ChatText := ⟨[0x61, 0x22, 0x62], by decide, by decide⟩

/-- A text with a line break between two letters. -/
def brokenText : ChatText := ⟨[0x61, 0x0A, 0x62], by decide, by decide⟩

/-- A quote cuts the text, and neither a quote nor a line break leaves JSON. -/
theorem quoted_text_cut :
    ¬(extractChatText (buildChatMessage 1 (zeroBytes 32) quotedText) true =
        [.notifyUi quotedText.bytes, .historyAppend quotedText.bytes] ∧
      WellFormed (chatJson quotedText.bytes)) ∧
    extractChatText (buildChatMessage 1 (zeroBytes 32) quotedText) true =
      [.notifyUi [0x61], .historyAppend [0x61]] ∧
    ¬WellFormed (chatJson quotedText.bytes) ∧ ¬WellFormed (chatJson brokenText.bytes) := by
  have hfound : extractChatText (buildChatMessage 1 (zeroBytes 32) quotedText) true =
      [.notifyUi [0x61], .historyAppend [0x61]] :=
    extractChatText_buildChatMessage 1 (zeroBytes 32) quotedText
  have hquoted : ¬WellFormed (chatJson quotedText.bytes) := by decide
  have hbroken : ¬WellFormed (chatJson brokenText.bytes) := by decide
  exact ⟨fun h => hquoted h.2, hfound, hquoted, hbroken⟩

end SimpleGo
