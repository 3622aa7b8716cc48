import SimpleGo.History.Format

/-!
# The agent layer of a received message

What `smp_agent_process_message` does with a plaintext of the two outer layers: which
messages are decrypted by the ratchet, and where the contents of a decrypted message go. The
decryption itself is an input here; a message is followed from its first byte to the UI, the
chat history and the rotation. Contact names and delivery receipts are left out.
-/

namespace SimpleGo

open Lib

/-- Something done with a received message. -/
inductive MsgEffect where
  /-- The body is given to the two outer layers of decryption, with this E2E key. -/
  | e2eDecrypt (e2ePrivate : Bytes 32)
  /-- The body is given to the server layer of decryption alone. -/
  | smpDecrypt
  /-- The ratchet has decrypted an agent message. -/
  | decrypted (body : List UInt8)
  | notifyUi (text : List UInt8)
  | historyAppend (text : List UInt8)
  | qkey (data : List UInt8)
  | qtest
  | ack (queueId : List UInt8)
  deriving DecidableEq

/-- The part of a string from behind the first occurrence of a pattern: `strstr`, stepped
over. -/
def findBehind (pattern : List UInt8) : List UInt8 → Option (List UInt8)
  | [] => if pattern = [] then some [] else none
  | c :: rest =>
    if pattern.isPrefixOf (c :: rest) then some ((c :: rest).drop pattern.length)
    else findBehind pattern rest

/-- The characters of `"text":"`. -/
def textKey : List UInt8 := [0x22, 0x74, 0x65, 0x78, 0x74, 0x22, 0x3A, 0x22]

/-- The text in the JSON of a chat message; the JSON ends at a zero byte. -/
def jsonText (json : List UInt8) : Option (List UInt8) :=
  (findBehind textKey (json.takeWhile (· ≠ 0))).bind fun rest =>
    if 0x22 ∈ rest then some (rest.takeWhile (· ≠ 0x22)) else none

/-- Where the inner message of an agent message starts: behind the message id and the hash of
the message before. -/
def innerOffset (body : List UInt8) : ℕ := 10 + (body.getD 9 0).toNat

/-- The body is an agent message with an inner message of this tag. -/
def hasInnerTag (body : List UInt8) (tag : UInt8) : Bool :=
  decide (11 ≤ body.length) && body.getD 0 0 == 0x4D && decide (innerOffset body < body.length) &&
    body.getD (innerOffset body) 0 == tag

/-- The text of a body that is a chat message. -/
def chatText (body : List UInt8) : Option (List UInt8) :=
  if hasInnerTag body 0x4D then jsonText (body.drop (innerOffset body + 1)) else none

/-- `extract_chat_text`; `jsonAlloc` says whether the copy of the JSON can be allocated. -/
def extractChatText (body : List UInt8) (jsonAlloc : Bool) : List MsgEffect :=
  if hasInnerTag body 0x4D then
    if jsonAlloc then
      match chatText body with
      | none => []
      | some text => [.notifyUi text, .historyAppend (text.take historyMaxText)]
    else []
  else if hasInnerTag body 0x51 && decide (innerOffset body + 1 < body.length) then
    let payload := body.drop (innerOffset body + 2)
    match body.getD (innerOffset body + 1) 0 with
    | 0x4B => if payload = [] then [] else [.qkey payload]
    | 0x54 => [.qtest]
    | _ => []
  else []

/-- What the ratchet answers, and whether memory is there. -/
structure AgentEnv where
  ratchetInitialized : Bool
  /-- `ratchet_decrypt_message`: the body, none when it fails. -/
  ratchet : Option (List UInt8)
  jsonAlloc : Bool

/-- A plaintext of the two outer layers: a buffer and its length. -/
structure Plaintext where
  bytes : Mem
  len : ℕ

/-- `handle_empty`: an `A_MSG` is decrypted, and its contents are passed on. The length is
the one in front of the padding; the message follows it. -/
def handleEmpty (plain : Mem) (env : AgentEnv) : List MsgEffect :=
  let originalLen := read16 plain 0
  if originalLen < 4 ∨ plain 5 ≠ 0x4D then []
  else if originalLen < 24 ∨ env.ratchetInitialized = false then []
  else
    match env.ratchet with
    | none => []
    | some body => .decrypted body :: extractChatText body env.jsonAlloc

/-- `smp_agent_process_message`. A confirmation (`K`) carries no message. -/
def smpAgentProcessMessage (plain : Plaintext) (env : AgentEnv) : List MsgEffect :=
  if plain.len < 3 then []
  else if plain.bytes 2 = 0x5F then handleEmpty plain.bytes env
  else []

/-- What a decrypted message contains is passed on: a chat text goes to the UI and to the
history, unless there is no memory for it. -/
theorem extractChatText_stores {body text : List UInt8} (h : chatText body = some text) :
    extractChatText body true =
      [.notifyUi text, .historyAppend (text.take historyMaxText)] := by
  have htag : hasInnerTag body 0x4D = true := by
    by_contra hno
    rw [chatText, if_neg hno] at h
    cases h
  rw [extractChatText, if_pos htag, if_pos rfl, h]

end SimpleGo
