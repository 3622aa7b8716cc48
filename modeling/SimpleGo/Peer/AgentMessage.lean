import SimpleGo.Lib.Memory

/-!
# Agent messages

What the device sends to a contact is an agent message: a tag, the number of the message, the
hash of the message before it, and a payload. The four builders of the source differ only in
the payload. A receiver reads the number and the hash back from the bytes.
-/

namespace SimpleGo

open Lib

/-- The characters of a string literal of the source. -/
def asciiBytes (s : String) : List UInt8 := s.toList.map fun c => UInt8.ofNat c.toNat

/-- What a `peer_send_*` function is asked to send. -/
inductive AgentSend where
  | hello
  | chat (message : List UInt8)
  | receipt (peerSndMsgId : UInt64) (msgHash : Bytes 32)
  | raw (aMessage : List UInt8)
  deriving DecidableEq

namespace AgentSend

/-- `aMessage`, as `build_hello_message`, `build_chat_message`, `build_receipt_message` and
`build_raw_agent_message` write it. A chat message comes from a buffer of 256 bytes, so that
its JSON form fits its own. -/
def aMessage : AgentSend → List UInt8
  | hello => [0x48]
  | chat message =>
    0x4D :: asciiBytes "\x7b\"v\":\"1\",\"event\":\"x.msg.new\",\"params\":\x7b\"content\":\x7b" ++
      asciiBytes "\"type\":\"text\",\"text\":\"" ++ message ++ asciiBytes "\"\x7d\x7d\x7d"
  | receipt peerSndMsgId msgHash =>
    [0x56, 0x01] ++ be64 peerSndMsgId ++ 32 :: msgHash.toList ++ [0x00, 0x00]
  | raw aMessage => aMessage

/-- The failed write of a HELLO is not saved, and no saved one is tried after it. -/
def retries : AgentSend → Bool
  | hello => false
  | _ => true

end AgentSend

/-- An agent message: the first one carries no hash. -/
def agentMessage (msgId : UInt64) (prevMsgHash : Bytes 32) (aMessage : List UInt8) : List UInt8 :=
  0x4D :: be64 msgId ++ (if msgId = 1 then [0] else 32 :: prevMsgHash.toList) ++ aMessage

/-- `build_raw_agent_message` has a buffer of 1024 bytes; the other payloads fit theirs. -/
def AgentSend.fits (message : List UInt8) : AgentSend → Bool
  | raw _ => message.length ≤ 1024
  | _ => true

/-- The agent message id in a message. -/
def sndMsgId (message : List UInt8) : UInt64 := read64 (memOf message fun _ => 0) 1

/-- The hash of the previous message in a message. -/
def prevMsgHash (message : List UInt8) : List UInt8 :=
  let m := memOf message fun _ => 0
  window m 10 (m 9).toNat

/-- The parts of an agent message lie behind each other. -/
theorem agentMessage_holds (msgId : UInt64) (hash : Bytes 32) (aMessage : List UInt8) :
    Holds (memOf (agentMessage msgId hash aMessage) fun _ => 0) 1 (be64 msgId) ∧
    Holds (memOf (agentMessage msgId hash aMessage) fun _ => 0) 9
      (if msgId = 1 then [0] else 32 :: hash.toList) := by
  have h := holds_memOf (agentMessage msgId hash aMessage) fun _ => 0
  rw [agentMessage, holds_append, List.cons_append, holds_cons, holds_append] at h
  exact ⟨h.1.2.1, h.1.2.2⟩

/-- The id is read back. -/
theorem sndMsgId_agentMessage (msgId : UInt64) (hash : Bytes 32) (aMessage : List UInt8) :
    sndMsgId (agentMessage msgId hash aMessage) = msgId :=
  read64_of_holds (agentMessage_holds msgId hash aMessage).1

/-- The hash is read back, except from the first message. -/
theorem prevMsgHash_agentMessage {msgId : UInt64} (h : msgId ≠ 1) (hash : Bytes 32)
    (aMessage : List UInt8) : prevMsgHash (agentMessage msgId hash aMessage) = hash.toList := by
  have hheld := (agentMessage_holds msgId hash aMessage).2
  rw [if_neg h, holds_cons] at hheld
  simp only [prevMsgHash, hheld.1]
  exact hheld.2.window_eq (by simp)

/-- A payload of at most 982 bytes fits in any case. -/
theorem AgentSend.fits_of_le {kind : AgentSend} (h : kind.aMessage.length ≤ 982)
    (msgId : UInt64) (hash : Bytes 32) :
    kind.fits (agentMessage msgId hash kind.aMessage) = true := by
  cases kind with
  | raw a =>
    simp only [aMessage] at h
    simp only [fits, aMessage, agentMessage, decide_eq_true_eq, List.cons_append,
      List.length_cons, List.length_append, be64_length]
    split <;> simp <;> omega
  | hello | chat | receipt => rfl

end SimpleGo
