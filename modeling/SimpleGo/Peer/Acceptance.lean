import SimpleGo.Net.Framing
import SimpleGo.Peer.MessageChain

/-!
# Which answer a send takes for its own

`encrypt_and_send_agent_msg` reads one block after its SEND and searches it for the letters OK. The
server answers each SEND in a block of its own; an answer that comes too late is read by a later
send. Here the outcome `accepted` of a write is computed from the block that is read.
-/

namespace SimpleGo

open Lib

/-! ### Blocks of the server -/

/-- A block that the server writes, and the number of the SEND that it answers. -/
structure AnswerBlock where
  send : Option ℕ
  bytes : Mem

/-- The bytes of the blocks of a connection. -/
def streamOf (blocks : ℕ → AnswerBlock) : Mem := fun i =>
  (blocks (i / smpBlockSize)).bytes (i % smpBlockSize)

/-- The search for OK in a response of this length. -/
def searchOk (block : Mem) (contentLen : ℕ) : Bool :=
  (List.range (contentLen - 1)).any fun i => block (2 + i) = 0x4F && block (2 + i + 1) = 0x4B

/-- `smp_read_block` takes the block, and the letters OK are somewhere in it. -/
def hasLettersOk (block : Mem) : Bool :=
  read16 block 0 ≤ smpBlockSize - 2 && searchOk block (read16 block 0)

/-- The command of an answer is OK: it stands behind the authorisation, the session id, the
correlation id and the entity id. `peer_connect` negotiates version 6 of the protocol, which has
the session id in each transmission. -/
def answerIsOk (block : Mem) : Bool :=
  let contentLen := read16 block 0
  let resp : Mem := fun i => block (2 + i)
  match (if 3 ≤ contentLen then some 3 else none).bind fun p =>
      (skipField resp contentLen p).bind fun p =>
        (skipField resp contentLen p).bind fun p =>
          (skipField resp contentLen p).bind fun p => skipField resp contentLen p with
  | none => false
  | some p => p + 2 ≤ contentLen && window resp p 2 == [0x4F, 0x4B]

/-! ### Sends over a connection -/

/-- The sending side, its connection with the blocks that the server writes, and how many SENDs
were written over it. -/
structure PeerExchange where
  tasks : PeerTasks
  conn : Connection
  blocks : ℕ → AnswerBlock
  sends : ℕ

namespace PeerExchange

variable (sha256 : List UInt8 → Bytes 32) (ex : PeerExchange)

/-- A new connection. -/
def connected (tasks : PeerTasks) (blocks : ℕ → AnswerBlock) : PeerExchange :=
  ⟨tasks, ⟨streamOf blocks, 0, true⟩, blocks, 0⟩

/-- The answer is taken for OK. -/
def responseOk (call : ReadCall) : Bool :=
  let read := smpReadBlock ex.conn call
  0 ≤ read.1 && searchOk read.2.2 read.1.toNat

/-- A SEND was written, and a block is read after it. -/
def exchanged (call : ReadCall) : PeerExchange :=
  { ex with conn := (smpReadBlock ex.conn call).2.1, sends := ex.sends + 1 }

/-- A send of this message comes to the point where it waits for the answer. -/
def writesSend (idx : ℕ) (kind : AgentSend) (env : SendEnv) : Bool :=
  kind.fits (ex.tasks.builtTransmission idx kind).message && env.encrypts && env.write.written &&
    ex.tasks.peer.link.isSome

/-- `encrypt_and_send_agent_msg`, with what it reads. -/
def encryptAndSend (idx : ℕ) (kind : AgentSend) (env : SendEnv) (call : ReadCall) :
    PeerExchange × Bool :=
  let read := { env with write := { env.write with accepted := ex.responseOk call } }
  let result := ex.tasks.encryptAndSend sha256 idx kind read
  ({ (if ex.writesSend idx kind env then ex.exchanged call else ex) with tasks := result.1 },
    result.2)

/-- A retry comes to the point where it waits for the answer. -/
def writesRetry (env : SendEnv) : Bool :=
  ex.tasks.retry.isSome && env.rewrite.written && ex.tasks.peer.link.isSome

/-- `handshake_retry_send`, with what it reads. -/
def retrySend (env : SendEnv) (call : ReadCall) : PeerExchange × Bool :=
  let read := { env with rewrite := { env.rewrite with accepted := ex.responseOk call } }
  let result := ex.tasks.handshakeRetrySend read
  ({ (if ex.writesRetry env then ex.exchanged call else ex) with tasks := result.1 }, result.2)

end PeerExchange

/-- What happens over a connection. -/
inductive ExchangeStep where
  /-- Another connection is made. -/
  | connect (blocks : ℕ → AnswerBlock)
  | send (idx : ℕ) (kind : AgentSend) (env : SendEnv) (call : ReadCall)
  | retry (env : SendEnv) (call : ReadCall)
  /-- A SEND of another function, with the read after it. -/
  | otherSend (call : ReadCall)
  /-- Whatever the device does between two sends. -/
  | between (f : PeerTasks → PeerTasks)

namespace PeerExchange

/-- One step. -/
def step (sha256 : List UInt8 → Bytes 32) (ex : PeerExchange) : ExchangeStep → PeerExchange
  | .connect blocks => connected ex.tasks blocks
  | .send idx kind env call => (ex.encryptAndSend sha256 idx kind env call).1
  | .retry env call => (ex.retrySend env call).1
  | .otherSend call => ex.exchanged call
  | .between f => { ex with tasks := f ex.tasks }

/-- A block that was read is the server's OK answer to this SEND. -/
def Accepted (ex : PeerExchange) (n : ℕ) : Prop :=
  ∃ k, (k + 1) * smpBlockSize ≤ ex.conn.pos ∧ (ex.blocks k).send = some n ∧
    answerIsOk (ex.blocks k).bytes = true

/-- The hash of the previous message, of the active contact. -/
def prevHash (ex : PeerExchange) : Bytes 32 := ex.tasks.handshakes.current.prevMsgHash

/-- A send returns true, and advances the hash, only if the server answered OK to it. -/
def ReportsAcceptance (sha256 : List UInt8 → Bytes 32) (ex : PeerExchange) : ExchangeStep → Prop
  | .send idx kind env call =>
    let result := ex.encryptAndSend sha256 idx kind env call
    result.2 = true ∨ result.1.prevHash ≠ ex.prevHash → result.1.Accepted ex.sends
  | .retry env call =>
    let result := ex.retrySend env call
    result.2 = true ∨ result.1.prevHash ≠ ex.prevHash → result.1.Accepted ex.sends
  | _ => True

/-- The block that is read next. -/
def nextBlock (ex : PeerExchange) : AnswerBlock := ex.blocks (ex.conn.pos / smpBlockSize)

/-- The letters OK stand in the next block only when it is the server's OK answer to the SEND that
is written now. -/
def NextIsOwn (ex : PeerExchange) : Prop :=
  hasLettersOk ex.nextBlock.bytes = true →
    ex.nextBlock.send = some ex.sends ∧ answerIsOk ex.nextBlock.bytes = true

instance (ex : PeerExchange) : Decidable ex.NextIsOwn :=
  inferInstanceAs (Decidable (hasLettersOk ex.nextBlock.bytes = true → _ ∧ _))

/-- The reads do not stop inside a block, and a send finds no letters OK that are not its own. -/
def AnswersMatch (ex : PeerExchange) : ExchangeStep → Prop
  | .send idx kind env call => ex.writesSend idx kind env = true → call.OnTime ∧ ex.NextIsOwn
  | .retry env call => ex.writesRetry env = true → call.OnTime ∧ ex.NextIsOwn
  | .otherSend call => call.OnTime
  | .connect _ | .between _ => True

/-! ### Reads of whole blocks -/

/-- The blocks of the connection come one after the other, and no read has stopped inside one. -/
structure Aligned (ex : PeerExchange) : Prop where
  stream : ex.conn.stream = streamOf ex.blocks
  boundary : ex.conn.live = true → smpBlockSize ∣ ex.conn.pos

variable {ex : PeerExchange} {sha256 : List UInt8 → Bytes 32}

/-- The stream at a block boundary is the block. -/
theorem streamOf_block (blocks : ℕ → AnswerBlock) {pos i : ℕ} (hpos : smpBlockSize ∣ pos)
    (hi : i < smpBlockSize) :
    streamOf blocks (pos + i) = (blocks (pos / smpBlockSize)).bytes i := by
  obtain ⟨k, rfl⟩ := hpos
  have hsize : 0 < smpBlockSize := by decide
  rw [streamOf, Nat.mul_add_div hsize, Nat.div_eq_of_lt hi, Nat.add_zero, Nat.mul_add_mod,
    Nat.mod_eq_of_lt hi, Nat.mul_div_cancel_left _ hsize]

/-- The search reads the block only. -/
theorem searchOk_congr {block bytes : Mem} (h : ∀ i < smpBlockSize, block i = bytes i) {n : ℕ}
    (hn : n ≤ smpBlockSize - 2) : searchOk block n = searchOk bytes n := by
  rw [Bool.eq_iff_iff, searchOk, searchOk, List.any_eq_true, List.any_eq_true]
  refine exists_congr fun i => and_congr_right fun hi => ?_
  rw [List.mem_range] at hi
  have hsize : smpBlockSize = 16384 := rfl
  rw [h (2 + i) (by omega), h (2 + i + 1) (by omega)]

/-- A read on time keeps the blocks aligned. -/
theorem Aligned.exchanged (h : ex.Aligned) {call : ReadCall} (htime : call.OnTime) :
    (ex.exchanged call).Aligned := by
  rcases smpReadBlock_onTime ex.conn htime with ⟨block, hlive, -, -, hread⟩ | ⟨block, hread⟩ |
    ⟨pos, block, hread⟩
  · rw [PeerExchange.exchanged, hread]
    exact ⟨h.stream, fun _ => Nat.dvd_add (h.boundary hlive) (Nat.dvd_refl _)⟩
  · rw [PeerExchange.exchanged, hread]
    exact ⟨h.stream, h.boundary⟩
  · rw [PeerExchange.exchanged, hread]
    exact ⟨h.stream, fun hlive => by cases hlive⟩

/-- An answer that is taken for OK is the OK answer to this SEND. -/
theorem Aligned.accepted (h : ex.Aligned) {call : ReadCall} (htime : call.OnTime)
    (hown : ex.NextIsOwn) (hok : ex.responseOk call = true) :
    (ex.exchanged call).Accepted ex.sends := by
  rw [responseOk] at hok
  rcases smpReadBlock_onTime ex.conn htime with ⟨block, hlive, hblock, hlen, hread⟩ |
    ⟨block, hread⟩ | ⟨pos, block, hread⟩
  · have hboundary := h.boundary hlive
    have hbytes : ∀ i < smpBlockSize, block i = ex.nextBlock.bytes i := fun i hi => by
      rw [hblock i hi, h.stream, streamOf_block _ hboundary hi, nextBlock]
    have hlength : read16 block 0 = read16 ex.nextBlock.bytes 0 := by
      rw [read16, read16, hbytes 0 (by decide), hbytes 1 (by decide)]
    rcases hlen with hlen | ⟨hlen, hfits⟩
    · rw [hlen] at hok
      cases hok
    · rw [hlen, hread] at hok
      have hsearch : searchOk block (read16 block 0) = true := by simpa using hok
      rw [hlength] at hfits
      rw [hlength, searchOk_congr hbytes hfits] at hsearch
      obtain ⟨hsend, hanswer⟩ := hown (by rw [hasLettersOk, hsearch]; simpa using hfits)
      refine ⟨ex.conn.pos / smpBlockSize, ?_, hsend, hanswer⟩
      rw [PeerExchange.exchanged, hread]
      dsimp only
      rw [Nat.add_mul, Nat.div_mul_cancel hboundary, Nat.one_mul]
  · rw [hread] at hok
    cases hok
  · rw [hread] at hok
    cases hok

/-! ### What a send reports -/

/-- A message that is built leaves the hash. -/
theorem countUp_prevMsgHash (hs : HandshakeArray) :
    hs.countUp.current.prevMsgHash = hs.current.prevMsgHash := by
  rw [HandshakeArray.countUp, HandshakeArray.current]
  dsimp only
  rw [Function.update_self]

/-- A send that returns true or advances the hash has read an answer that it takes for OK. -/
theorem encryptAndSend_reports {idx : ℕ} {kind : AgentSend} {env : SendEnv} {call : ReadCall}
    (h : (ex.encryptAndSend sha256 idx kind env call).2 = true ∨
      (ex.encryptAndSend sha256 idx kind env call).1.prevHash ≠ ex.prevHash) :
    ex.writesSend idx kind env = true ∧ ex.responseOk call = true := by
  have hcounted : ex.tasks.counted.handshakes.current.prevMsgHash = ex.prevHash :=
    countUp_prevMsgHash _
  have hmessage : (ex.tasks.builtTransmission idx kind).message =
      ex.tasks.handshakes.builtMessage kind := rfl
  rw [encryptAndSend, prevHash] at h
  rw [writesSend, hmessage]
  dsimp only at h
  rcases ex.tasks.encryptAndSend_cases sha256 idx kind { env with
    write := { env.write with accepted := ex.responseOk call } } with
    ⟨-, heq⟩ | ⟨-, heq⟩ | ⟨link, -, -, -, heq⟩ | ⟨link, hwritten, hlink, hok, heq⟩
  · rw [heq] at h
    exact absurd hcounted (h.resolve_left (by simp))
  · rw [heq] at h
    refine absurd ?_ (h.resolve_left (by simp))
    dsimp only
    split
    · exact hcounted
    · exact hcounted
  · rw [heq] at h
    exact absurd hcounted (h.resolve_left (by simp))
  · refine ⟨?_, hok⟩
    have hbuilt : (kind.fits (ex.tasks.handshakes.builtMessage kind) && env.encrypts) = true := by
      by_contra hno
      rw [PeerTasks.encryptAndSend, hmessage, if_neg hno] at heq
      exact absurd (congrArg Prod.snd heq) (by simp)
    rw [hbuilt, hlink]
    simpa using hwritten

/-- So has a retry. -/
theorem retrySend_reports {env : SendEnv} {call : ReadCall}
    (h : (ex.retrySend env call).2 = true ∨ (ex.retrySend env call).1.prevHash ≠ ex.prevHash) :
    ex.writesRetry env = true ∧ ex.responseOk call = true := by
  rw [retrySend, prevHash] at h
  rw [writesRetry]
  dsimp only at h
  rcases ex.tasks.handshakeRetrySend_cases { env with
    rewrite := { env.rewrite with accepted := ex.responseOk call } } with
    ⟨-, heq⟩ | ⟨saved, -, -, heq⟩ | ⟨saved, link, -, -, -, -, heq⟩ |
      ⟨saved, link, hsaved, hwritten, hlink, hok, heq⟩
  · rw [heq] at h
    exact absurd rfl (h.resolve_left (by simp))
  · rw [heq] at h
    exact absurd rfl (h.resolve_left (by simp))
  · rw [heq] at h
    exact absurd rfl (h.resolve_left (by simp))
  · refine ⟨?_, hok⟩
    rw [hsaved, hlink]
    simpa using hwritten

/-- Every step keeps the blocks aligned. -/
theorem Aligned.step (h : ex.Aligned) {a : ExchangeStep} (hmatch : ex.AnswersMatch a) :
    (ex.step sha256 a).Aligned := by
  cases a with
  | connect blocks => exact ⟨rfl, fun _ => Nat.dvd_zero _⟩
  | send idx kind env call =>
    rw [PeerExchange.step, PeerExchange.encryptAndSend]
    dsimp only
    by_cases hwrites : ex.writesSend idx kind env = true
    · have hread := h.exchanged (hmatch hwrites).1
      rw [if_pos hwrites]
      exact ⟨hread.stream, hread.boundary⟩
    · rw [if_neg hwrites]
      exact ⟨h.stream, h.boundary⟩
  | retry env call =>
    rw [PeerExchange.step, PeerExchange.retrySend]
    dsimp only
    by_cases hwrites : ex.writesRetry env = true
    · have hread := h.exchanged (hmatch hwrites).1
      rw [if_pos hwrites]
      exact ⟨hread.stream, hread.boundary⟩
    · rw [if_neg hwrites]
      exact ⟨h.stream, h.boundary⟩
  | otherSend call => exact h.exchanged hmatch
  | between f => exact ⟨h.stream, h.boundary⟩

/-- A step reports an acceptance only if there was one. -/
theorem Aligned.reportsAcceptance (h : ex.Aligned) {a : ExchangeStep} (hmatch : ex.AnswersMatch a) :
    ex.ReportsAcceptance sha256 a := by
  cases a with
  | connect | otherSend | between => trivial
  | send idx kind env call =>
    intro hreport
    obtain ⟨hwrites, hok⟩ := encryptAndSend_reports hreport
    obtain ⟨htime, hown⟩ := hmatch hwrites
    have haccepted := h.accepted htime hown hok
    rw [encryptAndSend]
    dsimp only
    rw [if_pos hwrites]
    exact haccepted
  | retry env call =>
    intro hreport
    obtain ⟨hwrites, hok⟩ := retrySend_reports hreport
    obtain ⟨htime, hown⟩ := hmatch hwrites
    have haccepted := h.accepted htime hown hok
    rw [retrySend]
    dsimp only
    rw [if_pos hwrites]
    exact haccepted

/-- A send is reported as accepted only if the server has answered OK to that SEND, in every run in
which no read stops inside a block and the letters OK stand in a block that a send reads only when
it is the server's OK answer to that send. -/
theorem send_reports_acceptance (sha256 : List UInt8 → Bytes 32) (tasks : PeerTasks)
    (blocks : ℕ → AnswerBlock) (labels : List ExchangeStep)
    (hmatch : StepsMeet (step sha256) AnswersMatch (connected tasks blocks) labels) :
    StepsMeet (step sha256) (ReportsAcceptance sha256) (connected tasks blocks) labels :=
  hmatch.invariant_step (fun _ _ h hcond => Aligned.step h hcond)
    (fun _ _ h hcond => Aligned.reportsAcceptance h hcond)
    (⟨rfl, fun _ => Nat.dvd_zero _⟩ : (connected tasks blocks).Aligned)

/-! ### Sample runs -/

/-- A block with one transmission of the server that answers this SEND, without an
authorisation. -/
def answerBlock (send : ℕ) (corrId entityId command : List UInt8) : AnswerBlock :=
  let sessionId := List.replicate 32 9
  let transmission := 0 :: UInt8.ofNat sessionId.length :: sessionId ++
    UInt8.ofNat corrId.length :: corrId ++ UInt8.ofNat entityId.length :: entityId ++ command
  let content := 1 :: be16 transmission.length ++ transmission
  ⟨some send, memOf (be16 content.length ++ content) fun _ => 0x23⟩

/-- The sending side with a connection. -/
def linkedPeers : PeerTasks :=
  { twoPeers with peer := { twoPeers.peer with link := some ⟨[97], 443, none, none⟩ } }

/-- A message whose answer arrives in time. -/
def answeredSend : ExchangeStep := .send 1 (.chat [104]) smoothSend (burst 16383)

/-- A message whose answer does not arrive in time. -/
def unansweredSend : ExchangeStep := .send 1 (.chat [104]) smoothSend ⟨10000, 0, fun _ => 0, []⟩

/-- The first SEND is answered with an error, and the second one with OK. -/
def promptAnswers : ℕ → AnswerBlock
  | 0 => answerBlock 0 [0x41] (List.replicate 24 7) (asciiBytes "ERR QUOTA")
  | k => answerBlock k [0x41] (List.replicate 24 7) (asciiBytes "OK")

/-- A refused message and an accepted one. -/
theorem send_reports_acceptance_prompt :
    StepsMeet (step toySha256) (ReportsAcceptance toySha256) (connected linkedPeers promptAnswers)
      [answeredSend, answeredSend] := by
  have htime : (burst 16383).OnTime := Or.inr (Or.inr (Or.inr (Nat.le_refl _)))
  refine send_reports_acceptance toySha256 linkedPeers promptAnswers _
    ⟨fun _ => ⟨htime, ?_⟩, fun _ => ⟨htime, ?_⟩, trivial⟩
  · decide
  · decide

/-- An error answer whose entity id has the letters OK in it. -/
def lettersInEntityId : ℕ → AnswerBlock := fun k =>
  answerBlock k [0x41] (0x4F :: 0x4B :: List.replicate 22 7) (asciiBytes "ERR AUTH")

/-- An OK answer that comes late, and an error answer to the SEND after it. -/
def lateAnswers : ℕ → AnswerBlock
  | 0 => answerBlock 0 [0x41] (List.replicate 24 7) (asciiBytes "OK")
  | k => answerBlock k [0x41] (List.replicate 24 7) (asciiBytes "ERR AUTH")

/-- Only the first block can be read whole in one block's length. -/
theorem accepted_first {ex : PeerExchange} {n : ℕ} (hpos : ex.conn.pos = smpBlockSize)
    (h : ex.Accepted n) : (ex.blocks 0).send = some n ∧ answerIsOk (ex.blocks 0).bytes = true := by
  obtain ⟨k, hk, hsend, hok⟩ := h
  rw [hpos, smpBlockSize] at hk
  obtain rfl : k = 0 := by omega
  exact ⟨hsend, hok⟩

/-- An error answer counts as acceptance when the letters OK are in its entity id, and so does the
late answer to an earlier SEND. -/
theorem send_reports_acceptance_counterexample :
    ¬ StepsMeet (step toySha256) (ReportsAcceptance toySha256)
        (connected linkedPeers lettersInEntityId) [answeredSend] ∧
      ¬ StepsMeet (step toySha256) (ReportsAcceptance toySha256)
        (connected linkedPeers lateAnswers) [unansweredSend, answeredSend] := by
  refine ⟨fun h => ?_, fun h => ?_⟩
  · have hok : ((connected linkedPeers lettersInEntityId).encryptAndSend toySha256 1 (.chat [104])
        smoothSend (burst 16383)).2 = true := by
      decide
    have hanswer := (accepted_first (by decide) (h.1 (.inl hok))).2
    revert hanswer
    decide
  · have hok : ((step toySha256 (connected linkedPeers lateAnswers) unansweredSend).encryptAndSend
        toySha256 1 (.chat [104]) smoothSend (burst 16383)).2 = true := by
      decide
    have hanswer := (accepted_first (by decide) (h.2.1 (.inl hok))).1
    revert hanswer
    decide

end PeerExchange

end SimpleGo
