import SimpleGo.Tasks.Transmissions

/-!
# Who reads the blocks of the main connection

The network task reads the main connection in its loop, before every command it writes, and
while it waits for a command's answer; `subscribe_all_contacts` has its own loop, which
`smp_connect` runs before the tasks start and the App Task after a reconnect. What is not
consumed there goes to the App Task through the ring buffer, which is taken to have room; before
the tasks start there is none. The reads are recorded, with the command whose answer a block is
taken for.
-/

namespace SimpleGo

open Lib

/-- A block as `smp_read_block` leaves it in the buffer, with a batch for its content. -/
structure ServerBlock where
  batch : List Transmission
  block : Mem
  nonempty : batch ≠ []
  count : batch.length < 256
  fits : (batchContent batch).length ≤ smpBlockSize - 2
  held : Holds (fun i => block (2 + i)) 0 (batchContent batch)

namespace ServerBlock

/-- The block of a batch, padded with `#`. -/
def ofBatch (batch : List Transmission) (nonempty : batch ≠ []) (count : batch.length < 256)
    (fits : (batchContent batch).length ≤ smpBlockSize - 2) : ServerBlock where
  batch := batch
  block := memOf (be16 (batchContent batch).length ++ batchContent batch) fun _ => 0x23
  nonempty := nonempty
  count := count
  fits := fits
  held := by
    have h := holds_memOf (be16 (batchContent batch).length ++ batchContent batch) fun _ => 0x23
    rw [holds_append] at h
    have hbehind := h.2
    rw [be16_length, Holds] at hbehind
    simpa [Holds, window] using hbehind

/-- The length that `smp_read_block` returns. -/
def contentLen (b : ServerBlock) : ℕ := (batchContent b.batch).length

/-- The buffer from the count byte on. -/
def resp (b : ServerBlock) : Mem := fun i => b.block (2 + i)

/-- The frame a reader puts into the ring buffer, without the two bytes of length. -/
def frame (b : ServerBlock) : List UInt8 := window b.block 2 b.contentLen

end ServerBlock

/-- A command whose answer is waited for. -/
inductive CommandKind where
  | sub
  | key
  | new
  deriving DecidableEq

/-- What the server answers the command with. An `ERR` to a `SUB` is left to the App Task. -/
def CommandKind.AnswerIs : CommandKind → ServerCommand → Prop
  | .sub, command => command = .ok
  | .key, command => command = .ok ∨ ∃ info, command = .err info
  | .new, command => (∃ queue, command = .ids queue) ∨ ∃ info, command = .err info

/-- A command that was written, and its entity id. -/
structure Awaited where
  kind : CommandKind
  entity : List UInt8

/-- A transmission answers the command: it has its entity id, and is what the server answers
such a command with. -/
def Awaited.AnsweredBy (cmd : Awaited) (t : Transmission) : Prop :=
  t.entity = cmd.entity ∧ cmd.kind.AnswerIs t.command

/-- A block that was read, and the command for whose answer it was taken. -/
structure BlockTaken where
  answerTo : Option Awaited
  batch : List Transmission

/-- The ring buffer `net_to_app_buf`, what the App Task has done, and the blocks read. -/
structure MsgFlow where
  /-- `net_to_app_buf` has been created. -/
  ready : Bool
  toApp : List (List UInt8)
  handled : List AppEvent
  reads : List BlockTaken

/-- What is subscribed to: contact queues, reply queues and the legacy queue are waited for
in loops that differ in these points. -/
structure SubLoop where
  attempts : ℕ
  /-- A frame of at most ten bytes is forwarded. -/
  forwardsShort : Bool
  /-- The second transmission of the block with the `OK` is forwarded. -/
  forwardsSecond : Bool

/-- The response loop for a contact queue. -/
def contactSubLoop : SubLoop := ⟨5, true, true⟩

/-- The response loop for a reply queue. -/
def replySubLoop : SubLoop := ⟨3, false, true⟩

/-- The response loop for the legacy reply queue. -/
def legacySubLoop : SubLoop := ⟨3, false, false⟩

/-- One queue's turn in `subscribe_all_contacts`: the blocks its loop reads, up to a timeout.
A `SUB` that cannot be written reads none. -/
structure Sub where
  loop : SubLoop
  entity : List UInt8
  answers : List ServerBlock

/-- A command of the App Task or the UI, with the answers the network task waits for. -/
inductive NetCommand where
  | sendAck
  | subscribeAll (subs : List Sub)
  | addContact (contactAnswer : Option ServerBlock) (subs : List Sub)
      (queueAnswer : Option ServerBlock) (queueSubs : List Sub)
  | sendKey (rcvId : List UInt8) (answer : Option ServerBlock)

/-- The response in `resp` is the `OK` for this queue; the offsets are not checked. -/
def isSubOk (resp : Mem) (contentLen : ℕ) (entity : List UInt8) : Bool :=
  let p := 3 + 1 + (resp 3).toNat
  let p := p + 1 + (resp p).toNat
  let entLen := (resp p).toNat
  let cmd := p + 1 + entLen
  entLen == entity.length && window resp (p + 1) entLen == entity &&
    decide (cmd + 1 < contentLen) && resp cmd == 0x4F && resp (cmd + 1) == 0x4B

/-- The frame with the second transmission of a block. -/
def secondTransmission (resp : Mem) (contentLen : ℕ) : Option (List UInt8) :=
  if resp 0 > 1 then
    let tx2Start := 1 + 2 + read16 resp 1
    if tx2Start + 2 < contentLen then
      let tx2DataLen := read16 resp tx2Start
      if 0 < tx2DataLen ∧ tx2DataLen ≤ contentLen - tx2Start - 2 then
        some (0x01 :: (be16 tx2DataLen ++ window resp (tx2Start + 2) tx2DataLen))
      else none
    else none
  else none

/-- The scan for `IDS ` in the answer to a `NEW`, given up at `ERR`. -/
def idsFound (resp : Mem) (contentLen : ℕ) : Bool :=
  ((List.range (contentLen - 3)).findSome? fun i =>
    if window resp i 4 = [0x49, 0x44, 0x53, 0x20] then some true
    else if window resp i 3 = [0x45, 0x52, 0x52] then some false
    else none).getD false

namespace MsgFlow

/-- No block has been read, and no task runs. -/
def boot : MsgFlow := ⟨false, [], [], []⟩

/-- Note a block that was read. -/
def record (s : MsgFlow) (answerTo : Option Awaited) (b : ServerBlock) : MsgFlow :=
  { s with reads := s.reads ++ [⟨answerTo, b.batch⟩] }

/-- `xRingbufferSend(net_to_app_buf, …)`, left out when there is no ring buffer. -/
def send (s : MsgFlow) (frame : List UInt8) : MsgFlow :=
  if s.ready then { s with toApp := s.toApp ++ [frame] } else s

/-- The read of the network task's loop: a `PONG` is taken out. -/
def poll (s : MsgFlow) (b : ServerBlock) : MsgFlow :=
  if frameIsPong b.block b.contentLen then s.record none b else (s.record none b).send b.frame

/-- `drain_pending_frames(ssl, block, 10)`, given the blocks that are there. -/
def drain (s : MsgFlow) (blocks : List ServerBlock) : MsgFlow := (blocks.take 10).foldl poll s

/-- The response loop of a `SUB`; no more blocks is a timeout. -/
def subAnswers (loop : SubLoop) (entity : List UInt8) :
    (attempts : ℕ) → List ServerBlock → MsgFlow → MsgFlow
  | 0, _, s => s
  | _ + 1, [], s => s
  | attempts + 1, b :: answers, s =>
    if b.contentLen > 10 then
      if isSubOk b.resp b.contentLen entity then
        let s := s.record (some ⟨.sub, entity⟩) b
        if loop.forwardsSecond then ((secondTransmission b.resp b.contentLen).map s.send).getD s
        else s
      else subAnswers loop entity attempts answers ((s.record none b).send b.frame)
    else
      let s := s.record none b
      subAnswers loop entity attempts answers (if loop.forwardsShort then s.send b.frame else s)

/-- `subscribe_all_contacts`. -/
def subscribeAllContacts (s : MsgFlow) (subs : List Sub) : MsgFlow :=
  subs.foldl (fun s sub => subAnswers sub.loop sub.entity sub.loop.attempts sub.answers s) s

/-- The end of `smp_connect`: it subscribes, then `smp_tasks_init` creates the ring buffers. -/
def smpConnect (subs : List Sub) : MsgFlow :=
  { boot.subscribeAllContacts subs with ready := true }

/-- One read for the answer to a command, whatever the block is. -/
def awaitAnswer (s : MsgFlow) (cmd : Awaited) (answer : Option ServerBlock) : MsgFlow :=
  (answer.map (s.record (some cmd))).getD s

/-- Whether the answer to a `NEW` has the ids of the queue. -/
def answerHasIds (answer : Option ServerBlock) : Bool :=
  (answer.map fun b => idsFound b.resp b.contentLen).getD false

/-- A command of the network task. A `NEW` is sent without an entity id. -/
def execute (s : MsgFlow) : NetCommand → MsgFlow
  | .sendAck => s
  | .subscribeAll subs => s.subscribeAllContacts subs
  | .addContact contactAnswer subs queueAnswer queueSubs =>
    let s := s.awaitAnswer ⟨.new, []⟩ contactAnswer
    if answerHasIds contactAnswer then
      let s := (s.subscribeAllContacts subs).awaitAnswer ⟨.new, []⟩ queueAnswer
      if answerHasIds queueAnswer then s.subscribeAllContacts queueSubs else s
    else s
  | .sendKey rcvId answer => s.awaitAnswer ⟨.key, rcvId⟩ answer

/-- One frame of the ring buffer in `smp_app_run`. -/
def appFrame (s : MsgFlow) : MsgFlow :=
  match s.toApp with
  | [] => s
  | frame :: toApp =>
    { s with toApp := toApp, handled := s.handled ++ (appDispatch frame).toList }

end MsgFlow

/-- What the two tasks do with the main connection. -/
inductive FlowStep where
  /-- The read of the network task's loop. -/
  | poll (b : ServerBlock)
  | command (drained : List ServerBlock) (cmd : NetCommand)
  /-- The reads before a `PING`. -/
  | ping (drained : List ServerBlock)
  /-- `app_do_reconnect` subscribes on a new connection. -/
  | reconnect (subs : List Sub)
  | app

/-- The tasks after a step. -/
def MsgFlow.step (s : MsgFlow) : FlowStep → MsgFlow
  | .poll b => s.poll b
  | .command drained cmd => (s.drain drained).execute cmd
  | .ping drained => s.drain drained
  | .reconnect subs => s.subscribeAllContacts subs
  | .app => s.appFrame

/-! ### Each transmission once -/

/-- How the transmissions of one block may be accounted for, with the App Task's part: one of
them is the answer to a command, whose entity id it carries, a `PONG` needs no handling, and
the others are the App Task's, in their order. -/
inductive ReadAccounted : Option Awaited → List Transmission → List AppEvent → Prop
  | nil (answerTo) : ReadAccounted answerTo [] []
  | answer {cmd t ts events} : cmd.AnsweredBy t → ReadAccounted none ts events →
      ReadAccounted (some cmd) (t :: ts) events
  | pong {answerTo t ts events} : t.command = .pong → ReadAccounted answerTo ts events →
      ReadAccounted answerTo (t :: ts) events
  | app {answerTo t ts events} : ReadAccounted answerTo ts events →
      ReadAccounted answerTo (t :: ts) (t.event :: events)

/-- Everything read so far is accounted for by what the App Task has done and what it will do
with the frames in the ring buffer. -/
def MsgFlow.DispatchedOnce (s : MsgFlow) : Prop :=
  ∃ parts : List (List AppEvent),
    List.Forall₂ (fun taken events => ReadAccounted taken.answerTo taken.batch events) s.reads parts ∧
      s.handled ++ s.toApp.filterMap appDispatch = parts.flatten

/-- The App Task can handle a block: one transmission, or one without a body and `PONG`s. -/
def ForApp : List Transmission → Prop
  | [] => True
  | t :: ts => t.ShortIds ∧ (∀ u ∈ ts, u.command = .pong) ∧ (ts = [] ∨ t.command.isMsg = false)

/-- The loop of the network task can handle a block. -/
def PollFits : List Transmission → Prop
  | [] => True
  | t :: ts => if t.command = .pong then ∀ u ∈ ts, u.command = .pong else ForApp (t :: ts)

/-- What may follow the `OK` in its block: the loop forwards one transmission at most, and none
without the ring buffer. -/
def SubLoop.RestFits (loop : SubLoop) (ready : Bool) : List Transmission → Prop
  | [] => True
  | second :: rest =>
    (if loop.forwardsSecond && ready then second.ShortIds else second.command = .pong) ∧
      ∀ u ∈ rest, u.command = .pong

/-- The response loop of a `SUB` can handle a block. -/
def SubLoop.Fits (loop : SubLoop) (ready : Bool) (entity : List UInt8) : List Transmission → Prop
  | [] => True
  | t :: ts =>
    if (batchContent (t :: ts)).length ≤ 10 then
      if loop.forwardsShort && ready then ForApp (t :: ts) else ∀ u ∈ t :: ts, u.command = .pong
    else if t.entity = entity ∧ t.command = .ok then loop.RestFits ready ts
    else if ready then ForApp (t :: ts)
    else ∀ u ∈ t :: ts, u.command = .pong

/-- A block read for an answer holds the answer, or `PONG`s only. -/
def AnswerFits (cmd : Awaited) (ts : List Transmission) : Prop :=
  match ts.filter (·.command ≠ .pong) with
  | [] => True
  | [t] => cmd.AnsweredBy t
  | _ => False

/-- Every block that `subscribe_all_contacts` reads fits the loop that reads it. -/
def SubsFit (ready : Bool) (subs : List Sub) : Prop :=
  ∀ sub ∈ subs, ∀ b ∈ sub.answers, sub.loop.Fits ready sub.entity b.batch

/-- Every block that a command reads fits its reader. -/
def NetCommand.Fits : NetCommand → Prop
  | .sendAck => True
  | .subscribeAll subs => SubsFit true subs
  | .addContact contactAnswer subs queueAnswer queueSubs =>
    (∀ b ∈ contactAnswer, AnswerFits ⟨.new, []⟩ b.batch) ∧ SubsFit true subs ∧
      (∀ b ∈ queueAnswer, AnswerFits ⟨.new, []⟩ b.batch) ∧ SubsFit true queueSubs
  | .sendKey rcvId answer => ∀ b ∈ answer, AnswerFits ⟨.key, rcvId⟩ b.batch

/-- Every block of a step fits its reader. -/
def FlowStep.Fits : FlowStep → Prop
  | .poll b => PollFits b.batch
  | .command drained cmd => (∀ b ∈ drained, PollFits b.batch) ∧ cmd.Fits
  | .ping drained => ∀ b ∈ drained, PollFits b.batch
  | .reconnect subs => SubsFit true subs
  | .app => True

/-! ### The readers -/

/-- `PONG`s need no handling. -/
theorem accounted_pongs (answerTo : Option Awaited) {ts : List Transmission}
    (h : ∀ u ∈ ts, u.command = .pong) : ReadAccounted answerTo ts [] := by
  induction ts with
  | nil => exact .nil answerTo
  | cons t ts ih =>
    exact .pong (h t List.mem_cons_self) (ih fun u hu => h u (List.mem_cons_of_mem _ hu))

/-- A block for the App Task is handled from its frame. -/
theorem ForApp.dispatch {ts : List Transmission} (h : ForApp ts) (hne : ts ≠ [])
    (answerTo : Option Awaited) :
    ∃ event, appDispatch (batchContent ts) = some event ∧ ReadAccounted answerTo ts [event] := by
  cases ts with
  | nil => exact absurd rfl hne
  | cons t ts =>
    obtain ⟨hids, hpongs, hbody⟩ := h
    exact ⟨t.event, appDispatch_batchContent hids hbody, .app (accounted_pongs _ hpongs)⟩

/-- An answer's block is used up by the answer. -/
theorem AnswerFits.accounted {cmd : Awaited} {ts : List Transmission}
    (h : AnswerFits cmd ts) : ReadAccounted (some cmd) ts [] := by
  induction ts with
  | nil => exact .nil _
  | cons t ts ih =>
    by_cases hpong : t.command = .pong
    · rw [AnswerFits, List.filter_cons_of_neg (by simp [hpong])] at h
      exact .pong hpong (ih h)
    · rw [AnswerFits, List.filter_cons_of_pos (by simp [hpong])] at h
      cases hrest : ts.filter (·.command ≠ .pong) with
      | nil =>
        rw [hrest] at h
        refine .answer h (accounted_pongs none fun u hu => ?_)
        by_contra hu'
        exact List.not_mem_nil (hrest ▸ List.mem_filter.2 ⟨hu, by simpa using hu'⟩)
      | cons u us =>
        rw [hrest] at h
        exact absurd h id

/-- A reader puts the whole content of the block into the ring buffer. -/
theorem ServerBlock.frame_eq (b : ServerBlock) : b.frame = batchContent b.batch := by
  have hwindow : window b.block 2 b.contentLen = window b.resp 0 b.contentLen := by
    simp [window, ServerBlock.resp]
  rw [ServerBlock.frame, hwindow]
  exact b.held

/-! ### The ring buffer, once created -/

@[simp] theorem MsgFlow.record_ready (s : MsgFlow) (answerTo : Option Awaited) (b : ServerBlock) :
    (s.record answerTo b).ready = s.ready := rfl

@[simp] theorem MsgFlow.send_ready (s : MsgFlow) (frame : List UInt8) :
    (s.send frame).ready = s.ready := by
  rw [MsgFlow.send]
  split <;> rfl

/-- The loop of the network task leaves the ring buffer. -/
@[simp] theorem MsgFlow.poll_ready (s : MsgFlow) (b : ServerBlock) :
    (s.poll b).ready = s.ready := by
  rw [MsgFlow.poll]
  split
  · rfl
  · exact MsgFlow.send_ready ..

/-- So does draining. -/
@[simp] theorem MsgFlow.drain_ready (s : MsgFlow) (blocks : List ServerBlock) :
    (s.drain blocks).ready = s.ready := by
  rw [MsgFlow.drain]
  induction blocks.take 10 generalizing s with
  | nil => rfl
  | cons b taken ih => exact (ih (s.poll b)).trans (s.poll_ready b)

/-- So does the response loop of a `SUB`. -/
theorem MsgFlow.subAnswers_ready (loop : SubLoop) (entity : List UInt8) (attempts : ℕ)
    (answers : List ServerBlock) (s : MsgFlow) :
    (MsgFlow.subAnswers loop entity attempts answers s).ready = s.ready := by
  induction attempts generalizing s answers with
  | zero => rfl
  | succ attempts ih =>
    cases answers with
    | nil => rfl
    | cons b answers =>
      rw [MsgFlow.subAnswers]
      split
      · split
        · cases loop.forwardsSecond with
          | false => rfl
          | true => cases secondTransmission b.resp b.contentLen <;> simp
        · rw [ih]
          simp
      · rw [ih]
        cases loop.forwardsShort <;> simp

/-- So does `subscribe_all_contacts`. -/
@[simp] theorem MsgFlow.subscribeAllContacts_ready (s : MsgFlow) (subs : List Sub) :
    (s.subscribeAllContacts subs).ready = s.ready := by
  induction subs generalizing s with
  | nil => rfl
  | cons sub subs ih => exact (ih _).trans (MsgFlow.subAnswers_ready ..)

@[simp] theorem MsgFlow.awaitAnswer_ready (s : MsgFlow) (cmd : Awaited)
    (answer : Option ServerBlock) : (s.awaitAnswer cmd answer).ready = s.ready := by
  cases answer <;> rfl

/-- No step takes the ring buffer away. -/
theorem MsgFlow.step_ready (s : MsgFlow) (step : FlowStep) : (s.step step).ready = s.ready := by
  cases step with
  | poll b => exact s.poll_ready b
  | command drained cmd =>
    rw [MsgFlow.step]
    cases cmd with
    | addContact contactAnswer subs queueAnswer queueSubs =>
      simp only [MsgFlow.execute]
      split_ifs <;> simp
    | _ => simp [MsgFlow.execute]
  | ping drained => exact s.drain_ready drained
  | reconnect subs => exact s.subscribeAllContacts_ready subs
  | app =>
    rw [MsgFlow.step, MsgFlow.appFrame]
    split <;> rfl

/-! ### What each reader does to the account -/

/-- A block is taken without anything for the App Task. -/
theorem MsgFlow.DispatchedOnce.record {s : MsgFlow} (h : s.DispatchedOnce)
    {answerTo : Option Awaited} {b : ServerBlock} (hb : ReadAccounted answerTo b.batch []) :
    (s.record answerTo b).DispatchedOnce := by
  obtain ⟨parts, hparts, hevents⟩ := h
  refine ⟨parts ++ [[]], List.rel_append hparts (.cons hb .nil), ?_⟩
  rw [List.flatten_append, List.flatten_cons, List.flatten_nil, List.append_nil, List.append_nil]
  exact hevents

/-- A block is taken, and a frame with the App Task's part goes into the ring buffer. -/
theorem MsgFlow.DispatchedOnce.recordSend {s : MsgFlow} (h : s.DispatchedOnce)
    (hready : s.ready = true) {answerTo : Option Awaited} {b : ServerBlock}
    {frame : List UInt8} {event : AppEvent} (hb : ReadAccounted answerTo b.batch [event])
    (hframe : appDispatch frame = some event) :
    ((s.record answerTo b).send frame).DispatchedOnce := by
  obtain ⟨parts, hparts, hevents⟩ := h
  rw [MsgFlow.send, MsgFlow.record_ready, if_pos hready]
  refine ⟨parts ++ [[event]], List.rel_append hparts (.cons hb .nil), ?_⟩
  change s.handled ++ (s.toApp ++ [frame]).filterMap appDispatch = _
  rw [List.filterMap_append, ← List.append_assoc, hevents, List.flatten_append]
  simp [hframe]

/-- A block for the App Task is forwarded. -/
theorem MsgFlow.DispatchedOnce.forward {s : MsgFlow} (h : s.DispatchedOnce)
    (hready : s.ready = true) {b : ServerBlock} (hb : ForApp b.batch) :
    ((s.record none b).send b.frame).DispatchedOnce := by
  obtain ⟨event, hevent, haccounted⟩ := hb.dispatch b.nonempty none
  exact h.recordSend hready haccounted (b.frame_eq ▸ hevent)

/-- Without the ring buffer nothing is forwarded. -/
theorem MsgFlow.DispatchedOnce.recordDrop {s : MsgFlow} (h : s.DispatchedOnce)
    (hready : s.ready = false) {answerTo : Option Awaited} {b : ServerBlock}
    {frame : List UInt8} (hb : ReadAccounted answerTo b.batch []) :
    ((s.record answerTo b).send frame).DispatchedOnce := by
  rw [MsgFlow.send, MsgFlow.record_ready, hready, if_neg Bool.false_ne_true]
  exact h.record hb

/-- The loop of the network task keeps the account. -/
theorem MsgFlow.DispatchedOnce.poll {s : MsgFlow} (h : s.DispatchedOnce)
    (hready : s.ready = true) {b : ServerBlock} (hb : PollFits b.batch) :
    (s.poll b).DispatchedOnce := by
  cases hbatch : b.batch with
  | nil => exact absurd hbatch b.nonempty
  | cons t ts =>
    have hpong : frameIsPong b.block b.contentLen = true ↔ t.command = .pong := by
      have hheld := b.held
      rw [hbatch] at hheld
      rw [ServerBlock.contentLen, hbatch]
      exact frameIsPong_iff hheld
    rw [hbatch, PollFits] at hb
    rw [MsgFlow.poll]
    by_cases hfirst : t.command = .pong
    · rw [if_pos hfirst] at hb
      rw [if_pos (hpong.2 hfirst)]
      refine h.record ?_
      rw [hbatch]
      exact accounted_pongs none fun u hu => (List.mem_cons.1 hu).elim (· ▸ hfirst) (hb u)
    · rw [if_neg hfirst] at hb
      rw [if_neg fun hp => hfirst (hpong.1 hp)]
      exact h.forward hready (hbatch ▸ hb)

/-- Draining keeps the account. -/
theorem MsgFlow.DispatchedOnce.drain {s : MsgFlow} (h : s.DispatchedOnce)
    (hready : s.ready = true) {blocks : List ServerBlock} (hblocks : ∀ b ∈ blocks, PollFits b.batch) :
    (s.drain blocks).DispatchedOnce := by
  have htake : ∀ b ∈ blocks.take 10, PollFits b.batch := fun b hb =>
    hblocks b (List.mem_of_mem_take hb)
  rw [MsgFlow.drain]
  generalize blocks.take 10 = taken at htake
  induction taken generalizing s with
  | nil => exact h
  | cons b taken ih =>
    exact ih (h.poll hready (htake b List.mem_cons_self)) ((s.poll_ready b).trans hready)
      fun b' hb' => htake b' (List.mem_cons_of_mem _ hb')

/-- One read for an answer keeps the account. -/
theorem MsgFlow.DispatchedOnce.awaitAnswer {s : MsgFlow} (h : s.DispatchedOnce)
    {cmd : Awaited} {answer : Option ServerBlock}
    (hanswer : ∀ b ∈ answer, AnswerFits cmd b.batch) :
    (s.awaitAnswer cmd answer).DispatchedOnce := by
  cases answer with
  | none => exact h
  | some b => exact h.record (hanswer b rfl).accounted

/-- The command starts with `OK` only if it is `OK`. -/
theorem ServerCommand.encode_ok {command : ServerCommand} {rest : List UInt8} :
    (command.encode ++ rest).take 2 = [0x4F, 0x4B] ↔ command = .ok := by
  cases command <;> simp [ServerCommand.encode]

/-- The first two bytes of a held list. -/
theorem Holds.take_two {m : Mem} {p : ℕ} {l : List UInt8} (h : Holds m p l) (hl : 2 ≤ l.length)
    (a b : UInt8) : l.take 2 = [a, b] ↔ m p = a ∧ m (p + 1) = b := by
  rcases l with _ | ⟨x, _ | ⟨y, l⟩⟩
  · exact absurd hl (by simp)
  · exact absurd hl (by simp)
  · rw [holds_cons, holds_cons] at h
    rw [h.1, h.2.1]
    simp

/-- Every command has at least two bytes. -/
theorem ServerCommand.two_le_encode (command : ServerCommand) : 2 ≤ command.encode.length := by
  cases command <;> simp [ServerCommand.encode]

/-- The loop of a `SUB` recognises its `OK`. -/
theorem isSubOk_iff {resp : Mem} {t : Transmission} {ts : List Transmission}
    {entity : List UInt8} (h : Holds resp 0 (batchContent (t :: ts))) :
    isSubOk resp (batchContent (t :: ts)).length entity = true ↔
      t.entity = entity ∧ t.command = .ok := by
  have hfirst := holdsFirst h
  have hlen := hfirst.length
  have hauth := (Holds.shortString hfirst.auth t.auth_lt).1
  have hcorr := (Holds.shortString hfirst.corr t.corr_lt).1
  have hentity := Holds.shortString hfirst.entity t.entity_lt
  have htwo := t.command.two_le_encode
  have hok := Holds.take_two hfirst.command (by rw [List.length_append]; omega) 0x4F 0x4B
  rw [ServerCommand.encode_ok] at hok
  rw [isSubOk]
  simp only [hauth, ← show t.corrAt = 3 + 1 + t.auth.length from rfl, hcorr,
    ← show t.entityAt = t.corrAt + 1 + t.corr.length from rfl, hentity.1,
    ← show t.commandAt = t.entityAt + 1 + t.entity.length from rfl, hentity.2.window_eq rfl,
    Bool.and_eq_true, beq_iff_eq, decide_eq_true_eq]
  rw [hok]
  constructor
  · rintro ⟨⟨⟨⟨-, heq⟩, -⟩, ho⟩, hk⟩
    exact ⟨heq, ho, hk⟩
  · rintro ⟨heq, ho, hk⟩
    exact ⟨⟨⟨⟨congrArg List.length heq, heq⟩, by omega⟩, ho⟩, hk⟩

/-- A single transmission has no second one to forward. -/
theorem secondTransmission_single {resp : Mem} {t : Transmission} {contentLen : ℕ}
    (h : Holds resp 0 (batchContent [t])) : secondTransmission resp contentLen = none := by
  rw [batchContent, holds_cons] at h
  have hone : ¬ (UInt8.ofNat 1 > 1) := by decide
  rw [secondTransmission, if_neg (by rw [h.1]; exact hone)]

/-- The second transmission of a block is forwarded as a block of its own. -/
theorem secondTransmission_eq {resp : Mem} {t second : Transmission} {ts : List Transmission}
    (h : Holds resp 0 (batchContent (t :: second :: ts)))
    (hcount : (t :: second :: ts).length < 256)
    (hfits : (batchContent (t :: second :: ts)).length ≤ smpBlockSize - 2) :
    secondTransmission resp (batchContent (t :: second :: ts)).length =
      some (batchContent [second]) := by
  have hsize : (batchContent (t :: second :: ts)).length = 3 + t.bytes.length + 2 +
      second.bytes.length + (ts.flatMap Transmission.framed).length := by
    simp only [batchContent, List.flatMap_cons, Transmission.framed, List.length_cons,
      List.length_append, be16_length]
    omega
  have htwo : 2 ≤ second.bytes.length := by
    have := second.command.two_le_encode
    rw [Transmission.bytes, List.length_append]
    omega
  obtain ⟨hfirstLen, hsecondLen, hsecond⟩ := holdsSecond h
  rw [smpBlockSize] at hfits
  have hcountByte : resp 0 > 1 := by
    rw [batchContent, holds_cons] at h
    rw [h.1]
    simp only [List.length_cons] at hcount
    rw [gt_iff_lt, UInt8.lt_iff_toNat_lt, toNat_ofNat_mod, List.length_cons, List.length_cons]
    have hone : (1 : UInt8).toNat = 1 := rfl
    omega
  rw [secondTransmission, if_pos hcountByte]
  simp only [read16_of_holds hfirstLen (by omega), ← show 3 = 1 + 2 from rfl,
    read16_of_holds hsecondLen (by omega)]
  rw [if_pos (by omega), if_pos (by omega), hsecond.window_eq rfl]
  simp [batchContent, Transmission.framed]

/-- The second transmission behind the `OK` of a `SUB`. -/
theorem MsgFlow.DispatchedOnce.subRest {s : MsgFlow} (h : s.DispatchedOnce) {loop : SubLoop}
    {ready : Bool} (hready : s.ready = ready) {b : ServerBlock} {t : Transmission}
    {ts : List Transmission} (hbatch : b.batch = t :: ts) {cmd : Awaited}
    (hanswer : cmd.AnsweredBy t) (hb : loop.RestFits ready ts) :
    (if loop.forwardsSecond then
      ((secondTransmission b.resp b.contentLen).map (s.record (some cmd) b).send).getD
        (s.record (some cmd) b)
    else s.record (some cmd) b).DispatchedOnce := by
  have hheld : Holds b.resp 0 (batchContent b.batch) := b.held
  rw [hbatch] at hheld
  cases ts with
  | nil =>
    rw [secondTransmission_single hheld]
    simp only [Option.map_none, Option.getD_none, ite_self]
    exact h.record (hbatch ▸ .answer hanswer (.nil none))
  | cons second rest =>
    have hcount := b.count
    have hsize := b.fits
    rw [hbatch] at hcount hsize
    rw [ServerBlock.contentLen, hbatch, secondTransmission_eq hheld hcount hsize]
    obtain ⟨hsecond, hpongs⟩ := hb
    have hrest := accounted_pongs none hpongs
    cases hforwards : loop.forwardsSecond with
    | false =>
      rw [hforwards, Bool.false_and, if_neg Bool.false_ne_true] at hsecond
      exact h.record (hbatch ▸ .answer hanswer (.pong hsecond hrest))
    | true =>
      rw [hforwards, Bool.true_and] at hsecond
      rw [if_pos rfl, Option.map_some, Option.getD_some]
      cases ready with
      | true =>
        exact h.recordSend hready (hbatch ▸ .answer hanswer (.app hrest))
          (appDispatch_batchContent hsecond (Or.inl rfl))
      | false => exact h.recordDrop hready (hbatch ▸ .answer hanswer (.pong hsecond hrest))

/-- The response loop of a `SUB` keeps the account. -/
theorem MsgFlow.DispatchedOnce.subAnswers {s : MsgFlow} (h : s.DispatchedOnce) {loop : SubLoop}
    {ready : Bool} (hready : s.ready = ready) {entity : List UInt8} {answers : List ServerBlock}
    (hanswers : ∀ b ∈ answers, loop.Fits ready entity b.batch) (attempts : ℕ) :
    (MsgFlow.subAnswers loop entity attempts answers s).DispatchedOnce := by
  induction attempts generalizing s answers with
  | zero => exact h
  | succ attempts ih =>
    cases answers with
    | nil => exact h
    | cons b answers =>
      have hrest : ∀ b' ∈ answers, loop.Fits ready entity b'.batch := fun b' hb' =>
        hanswers b' (List.mem_cons_of_mem _ hb')
      have hb := hanswers b List.mem_cons_self
      have hheld : Holds b.resp 0 (batchContent b.batch) := b.held
      have hnext : ((s.record none b).send b.frame).ready = ready := by simpa using hready
      rw [MsgFlow.subAnswers]
      cases hbatch : b.batch with
      | nil => exact absurd hbatch b.nonempty
      | cons t ts =>
        rw [hbatch] at hb hheld
        rw [SubLoop.Fits] at hb
        have hpongs : (∀ u ∈ t :: ts, u.command = .pong) → ReadAccounted none b.batch [] :=
          fun hall => hbatch ▸ accounted_pongs none hall
        have hlen : b.contentLen = (batchContent (t :: ts)).length := by
          rw [ServerBlock.contentLen, hbatch]
        simp only [hlen, isSubOk_iff hheld]
        by_cases hshort : (batchContent (t :: ts)).length ≤ 10
        · rw [if_pos hshort] at hb
          rw [if_neg (by omega)]
          cases hforwards : loop.forwardsShort with
          | true =>
            rw [hforwards, Bool.true_and] at hb
            cases ready with
            | true => exact ih (h.forward hready (hbatch ▸ hb)) hnext hrest
            | false => exact ih (h.recordDrop hready (hpongs hb)) hnext hrest
          | false =>
            rw [hforwards, Bool.false_and, if_neg Bool.false_ne_true] at hb
            exact ih (h.record (hpongs hb)) hready hrest
        · rw [if_neg hshort] at hb
          rw [if_pos (by omega)]
          by_cases hok : t.entity = entity ∧ t.command = .ok
          · rw [if_pos hok] at hb
            rw [if_pos hok, ← hlen]
            exact h.subRest hready hbatch hok hb
          · rw [if_neg hok] at hb
            rw [if_neg hok]
            cases ready with
            | true => exact ih (h.forward hready (hbatch ▸ hb)) hnext hrest
            | false => exact ih (h.recordDrop hready (hpongs hb)) hnext hrest

/-- `subscribe_all_contacts` keeps the account. -/
theorem MsgFlow.DispatchedOnce.subscribeAllContacts {s : MsgFlow} (h : s.DispatchedOnce)
    {ready : Bool} (hready : s.ready = ready) {subs : List Sub} (hsubs : SubsFit ready subs) :
    (s.subscribeAllContacts subs).DispatchedOnce := by
  induction subs generalizing s with
  | nil => exact h
  | cons sub subs ih =>
    exact ih (h.subAnswers hready (hsubs sub List.mem_cons_self) sub.loop.attempts)
      ((MsgFlow.subAnswers_ready ..).trans hready)
      fun sub' hsub' => hsubs sub' (List.mem_cons_of_mem _ hsub')

/-- A command keeps the account. -/
theorem MsgFlow.DispatchedOnce.execute {s : MsgFlow} (h : s.DispatchedOnce)
    (hready : s.ready = true) {cmd : NetCommand} (hcmd : cmd.Fits) :
    (s.execute cmd).DispatchedOnce := by
  cases cmd with
  | sendAck => exact h
  | subscribeAll subs => exact h.subscribeAllContacts hready hcmd
  | addContact contactAnswer subs queueAnswer queueSubs =>
    obtain ⟨hcontact, hsubs, hqueue, hqueueSubs⟩ := hcmd
    have hfirst := h.awaitAnswer hcontact
    have hsecond := (hfirst.subscribeAllContacts (by simpa using hready) hsubs).awaitAnswer hqueue
    simp only [MsgFlow.execute]
    split
    · split
      · exact hsecond.subscribeAllContacts (by simpa using hready) hqueueSubs
      · exact hsecond
    · exact hfirst
  | sendKey rcvId answer => exact h.awaitAnswer hcmd

/-- The App Task takes a frame out of the ring buffer. -/
theorem MsgFlow.DispatchedOnce.appFrame {s : MsgFlow} (h : s.DispatchedOnce) :
    s.appFrame.DispatchedOnce := by
  obtain ⟨parts, hparts, hevents⟩ := h
  rw [MsgFlow.appFrame]
  cases hqueue : s.toApp with
  | nil => exact ⟨parts, hparts, by rw [← hevents, hqueue]⟩
  | cons frame toApp =>
    refine ⟨parts, hparts, ?_⟩
    rw [← hevents, hqueue]
    cases hframe : appDispatch frame <;> simp [hframe]

/-- A step whose blocks fit their readers keeps the account. -/
theorem MsgFlow.DispatchedOnce.step {s : MsgFlow} (h : s.DispatchedOnce)
    (hready : s.ready = true) {step : FlowStep} (hfits : step.Fits) :
    (s.step step).DispatchedOnce := by
  cases step with
  | poll b => exact h.poll hready hfits
  | command drained cmd =>
    exact (h.drain hready hfits.1).execute ((s.drain_ready drained).trans hready) hfits.2
  | ping drained => exact h.drain hready hfits
  | reconnect subs => exact h.subscribeAllContacts hready hfits
  | app => exact h.appFrame

/-- The subscriptions at start-up keep the account. -/
theorem MsgFlow.smpConnect_dispatchedOnce {subs : List Sub} (hsubs : SubsFit false subs) :
    (MsgFlow.smpConnect subs).DispatchedOnce := by
  have hboot : MsgFlow.boot.DispatchedOnce := ⟨[], .nil, rfl⟩
  exact hboot.subscribeAllContacts rfl hsubs

/-- While every block fits the reader that takes it, from the subscriptions at start-up on, every
transmission is dispatched exactly once, in order and with its own bytes. -/
theorem transmissions_dispatched_once {subs : List Sub} {steps : List FlowStep}
    (hsubs : SubsFit false subs)
    (hfit : StepsMeet MsgFlow.step (fun _ step => step.Fits) (MsgFlow.smpConnect subs) steps) :
    (runFrom MsgFlow.step (MsgFlow.smpConnect subs) steps).DispatchedOnce := by
  have hstep : ∀ (s : MsgFlow) (step : FlowStep), s.ready = true ∧ s.DispatchedOnce → step.Fits →
      (s.step step).ready = true ∧ (s.step step).DispatchedOnce :=
    fun s step hs hfits => ⟨(s.step_ready step).trans hs.1, hs.2.step hs.1 hfits⟩
  exact (hfit.invariant hstep ⟨rfl, MsgFlow.smpConnect_dispatchedOnce hsubs⟩).2

/-- An empty field is short. -/
theorem emptyField_lt : ([] : List UInt8).length < 256 := by decide

/-- So is a correlation id of three bytes. -/
theorem sampleCorr_lt : ([1, 2, 3] : List UInt8).length < 256 := by decide

/-- A message for the queue with this entity id. -/
def sampleMsgFlow (entity : UInt8) (body : List UInt8) : Transmission where
  auth := []
  corr := []
  entity := [entity]
  command := .msg [entity] body
  auth_lt := emptyField_lt
  corr_lt := emptyField_lt
  entity_lt := by simp
  msgId_lt := by rintro _ _ ⟨⟩; simp

/-- An `OK` for the queue with this entity id. -/
def sampleOk (entity : UInt8) : Transmission where
  auth := []
  corr := [1, 2, 3]
  entity := [entity]
  command := .ok
  auth_lt := emptyField_lt
  corr_lt := sampleCorr_lt
  entity_lt := by simp
  msgId_lt := by rintro _ _ ⟨⟩

/-- The block of one transmission. -/
def sampleBlock (t : Transmission) (fits : (batchContent [t]).length ≤ smpBlockSize - 2) :
    ServerBlock :=
  .ofBatch [t] (List.cons_ne_nil _ _) (by simp) fits

/-- Blocks with a `SUB`'s `OK` at start-up, with one message, with a `SUB`'s `OK` and a message,
and with a `KEY`'s `OK`. -/
theorem transmissions_dispatched_once_four_blocks :
    (runFrom MsgFlow.step
      (MsgFlow.smpConnect [⟨contactSubLoop, [7], [sampleBlock (sampleOk 7) (by decide)]⟩])
      [.poll (sampleBlock (sampleMsgFlow 5 [1, 2]) (by decide)),
        .command [] (.subscribeAll [⟨contactSubLoop, [7],
          [.ofBatch [sampleOk 7, sampleMsgFlow 7 [3]] (by decide) (by decide) (by decide)]⟩]),
        .app, .command [] (.sendKey [5] (some (sampleBlock (sampleOk 5) (by decide))))]
      ).DispatchedOnce := by
  refine transmissions_dispatched_once ?_ ⟨?_, ⟨?_, ?_⟩, trivial, ⟨?_, ?_⟩, trivial⟩
  · rintro sub hsub b hb
    obtain rfl := List.mem_singleton.1 hsub
    obtain rfl := List.mem_singleton.1 hb
    exact trivial
  · exact ⟨⟨by decide, by decide⟩, by simp, Or.inl rfl⟩
  · simp
  · rintro sub hsub b hb
    obtain rfl := List.mem_singleton.1 hsub
    obtain rfl := List.mem_singleton.1 hb
    exact ⟨⟨by decide, by decide⟩, by simp⟩
  · simp
  · rintro b ⟨⟩
    exact ⟨rfl, Or.inl rfl⟩

/-- A message is the answer to no command. -/
theorem CommandKind.AnswerIs.isMsg {kind : CommandKind} {command : ServerCommand}
    (h : kind.AnswerIs command) : command.isMsg = false := by
  cases kind with
  | sub =>
    obtain rfl : command = .ok := h
    rfl
  | key => obtain rfl | ⟨info, rfl⟩ := h <;> rfl
  | new => obtain ⟨queue, rfl⟩ | ⟨info, rfl⟩ := h <;> rfl

/-- A single message is the App Task's, whatever it was read for. -/
theorem ReadAccounted.events_of_msg {answerTo : Option Awaited} {t : Transmission}
    {events : List AppEvent} (h : ReadAccounted answerTo [t] events)
    (hmsg : t.command.isMsg = true) : events = [t.event] := by
  cases h with
  | answer hanswer _ =>
    rw [hanswer.2.isMsg] at hmsg
    cases hmsg
  | pong hpong _ =>
    rw [hpong] at hmsg
    cases hmsg
  | app hrest =>
    cases hrest
    rfl

/-- Three runs that fail. Of two messages in one block the App Task sees one, with the other in
its body. A message that comes while `smp_connect` subscribes finds no ring buffer, and one
that comes before the answer to a `KEY` is taken for it. -/
theorem second_message_of_block_lost :
    ¬ (runFrom MsgFlow.step (MsgFlow.smpConnect [])
      [.poll (.ofBatch [sampleMsgFlow 5 [1, 2], sampleMsgFlow 7 [3]] (by decide) (by decide)
        (by decide)), .app]).DispatchedOnce ∧
    ¬ (MsgFlow.smpConnect [⟨contactSubLoop, [7],
      [sampleBlock (sampleMsgFlow 5 [1, 2]) (by decide)]⟩]).DispatchedOnce ∧
    ¬ (runFrom MsgFlow.step (MsgFlow.smpConnect [])
      [.command [] (.sendKey [5]
        (some (sampleBlock (sampleMsgFlow 5 [1, 2]) (by decide))))]).DispatchedOnce := by
  refine ⟨?_, ?_, ?_⟩
  · rintro ⟨parts, hparts, hevents⟩
    have hlength := congrArg List.length hevents
    cases hparts with
    | cons hblock hnone =>
      cases hnone
      cases hblock with
      | pong hfirst _ => cases hfirst
      | app hrest =>
        cases hrest with
        | pong hsecond _ => cases hsecond
        | app hnil =>
          cases hnil
          revert hlength
          decide
  · rintro ⟨parts, hparts, hevents⟩
    cases hparts with
    | cons hblock hnone =>
      cases hnone
      rw [hblock.events_of_msg rfl] at hevents
      exact absurd hevents (by decide)
  · rintro ⟨parts, hparts, hevents⟩
    cases hparts with
    | cons hblock hnone =>
      cases hnone
      rw [hblock.events_of_msg rfl] at hevents
      exact absurd hevents (by decide)

end SimpleGo
