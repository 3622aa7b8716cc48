import Mathlib.Data.Int.Notation
import Mathlib.Data.List.Chain
import SimpleGo.Lib.Memory
import SimpleGo.Lib.Runs

/-!
# Blocks over TLS

`read_exact` collects bytes from the TLS layer until the block is full or the deadline has
passed, `smp_read_block` takes what it returns for a block, and the network task forwards
the frames it reads. The TLS layer answers every call as it likes: the answers and the clock
are an input of each read, and the bytes of a connection are one stream.

`read_exact` returns the number of bytes it has when the deadline passes inside a block, and
`smp_read_block` does not look at the number.
-/

namespace SimpleGo

open Lib

/-- `SMP_BLOCK_SIZE`. -/
def smpBlockSize : ℕ := 16384

/-- What `mbedtls_ssl_read` answers. -/
inductive SslRead where
  /-- `more + 1` bytes, or as many as are wanted. -/
  | data (more : ℕ)
  | wantRead
  | wantWrite
  | closeNotify
  | eof
  | error

/-- One turn of the loop: the answer, and `get_tick_ms()` after it. -/
structure ReadEvent where
  result : SslRead
  tick : UInt32

/-- A connection: the bytes it delivers, how many it has delivered, and whether it still
does. After an error nothing more is read from an SSL context. -/
structure Connection where
  stream : Mem
  pos : ℕ
  live : Bool

/-- The deadline check: `(get_tick_ms() - start) > timeout_ms`. -/
def pastDeadline (timeoutMs start tick : UInt32) : Bool := timeoutMs < tick - start

/-- What `read_exact` returns when the deadline has passed. -/
def readTimeout (received : ℕ) : ℤ := if received > 0 then received else -2

/-- `mbedtls_ssl_read(ssl, buf + received, n)` that delivers `n` bytes. -/
def Connection.deliver (conn : Connection) (buf : Mem) (received n : ℕ) : Connection × Mem :=
  ({ conn with pos := conn.pos + n },
    fun i => if received ≤ i ∧ i < received + n then conn.stream (conn.pos + (i - received))
      else buf i)

/-- `read_exact` from the point where `received` bytes are in the buffer. When the answers
are used up, nothing arrives until the deadline. -/
def readExact (len : ℕ) (timeoutMs start : UInt32) :
    Connection → Mem → (received : ℕ) → List ReadEvent → ℤ × Connection × Mem
  | conn, buf, received, [] =>
    if received < len then (readTimeout received, conn, buf) else (received, conn, buf)
  | conn, buf, received, event :: events =>
    if received < len then
      match if conn.live then event.result else .error with
      | .data more =>
        let n := min (more + 1) (len - received)
        let (conn, buf) := conn.deliver buf received n
        if pastDeadline timeoutMs start event.tick then (readTimeout (received + n), conn, buf)
        else readExact len timeoutMs start conn buf (received + n) events
      | .wantRead | .wantWrite =>
        if pastDeadline timeoutMs start event.tick then (readTimeout received, conn, buf)
        else readExact len timeoutMs start conn buf received events
      | .closeNotify | .eof | .error => (-1, { conn with live := false }, buf)
    else (received, conn, buf)

/-- The inputs of one call of `smp_read_block`: what the buffer holds, and what happens. -/
structure ReadCall where
  timeoutMs : UInt32
  start : UInt32
  block : Mem
  events : List ReadEvent

/-- `smp_read_block`. -/
def smpReadBlock (conn : Connection) (call : ReadCall) : ℤ × Connection × Mem :=
  let (ret, conn, block) :=
    readExact smpBlockSize call.timeoutMs call.start conn call.block 0 call.events
  if ret < 0 then (ret, conn, block)
  else
    let contentLen := read16 block 0
    if contentLen > smpBlockSize - 2 then (-3, conn, block) else (contentLen, conn, block)

/-- Step over a field with a one-byte length. -/
def skipField (resp : Mem) (contentLen p : ℕ) : Option ℕ :=
  if p < contentLen then
    let p' := p + 1 + (resp p).toNat
    if p' ≤ contentLen then some p' else none
  else none

/-- Whether a frame is a `PONG`: behind the authorisation, correlation id and entity id. -/
def frameIsPong (block : Mem) (contentLen : ℕ) : Bool :=
  let resp : Mem := fun i => block (2 + i)
  match (if 3 ≤ contentLen then some 3 else none).bind fun p =>
      (skipField resp contentLen p).bind fun p =>
        (skipField resp contentLen p).bind fun p => skipField resp contentLen p with
  | none => false
  | some p => p + 4 ≤ contentLen && window resp p 4 == [0x50, 0x4F, 0x4E, 0x47]

/-- A call of `smp_read_block` that has returned, on the connection with number `epoch`. -/
structure BlockRead where
  epoch : ℕ
  stream : Mem
  first : ℕ
  last : ℕ
  live : Bool
  result : ℤ
  block : Mem

/-- The network task: its connection, how many it has had before, and the frames in the ring
buffer of the App Task. The reads it has made are recorded. -/
structure NetTask where
  conn : Connection
  epoch : ℕ
  toApp : List (List UInt8)
  reads : List BlockRead

namespace NetTask

/-- A task with a new connection. -/
def boot (stream : Mem) : NetTask := ⟨⟨stream, 0, true⟩, 0, [], []⟩

/-- A call of `smp_read_block`. -/
def readBlock (net : NetTask) (call : ReadCall) : NetTask × ℤ × Mem :=
  let ret := smpReadBlock net.conn call
  ({ net with
      conn := ret.2.1
      reads := net.reads ++ [⟨net.epoch, net.conn.stream, net.conn.pos, ret.2.1.pos, ret.2.1.live,
        ret.1, ret.2.2⟩] },
    ret.1, ret.2.2)

/-- `xRingbufferSend` of a frame that is no `PONG`; a full buffer drops it. -/
def forward (net : NetTask) (block : Mem) (contentLen : ℕ) (room : Bool) : NetTask :=
  if !frameIsPong block contentLen && room then
    { net with toApp := net.toApp ++ [window block 0 (contentLen + 2)] }
  else net

/-- `drain_pending_frames`; round number `i` makes the read `rounds i`. -/
def drainPendingFrames (rounds : ℕ → ReadCall × Bool) :
    (maxRounds i : ℕ) → NetTask → NetTask
  | 0, _, net => net
  | maxRounds + 1, i, net =>
    let (net, contentLen, block) := net.readBlock (rounds i).1
    if contentLen ≤ 0 then net
    else drainPendingFrames rounds maxRounds (i + 1)
      (net.forward block contentLen.toNat (rounds i).2)

/-- The read of the main loop. What is neither a frame nor a timeout asks for a new
connection, which delivers `next` from where the loop goes on. -/
def poll (net : NetTask) (call : ReadCall) (room : Bool) (next : Mem) : NetTask :=
  let (net, contentLen, block) := net.readBlock call
  if contentLen > 0 then net.forward block contentLen.toNat room
  else if contentLen = -2 then net
  else { net with conn := ⟨next, 0, true⟩, epoch := net.epoch + 1 }

end NetTask

/-- What the network task does with its connection. -/
inductive NetStep where
  /-- The read of the main loop. -/
  | poll (call : ReadCall) (room : Bool) (next : Mem)
  /-- The reads before a write. -/
  | drain (rounds : ℕ → ReadCall × Bool)
  /-- The read of a command's answer. -/
  | command (call : ReadCall)

/-- The network task after a step. -/
def NetTask.step (net : NetTask) : NetStep → NetTask
  | .poll call room next => net.poll call room next
  | .drain rounds => net.drainPendingFrames rounds 10 0
  | .command call => (net.readBlock call).1

/-! ### Reads that are on time -/

/-- The bytes an answer brings. -/
def SslRead.bytes : SslRead → ℕ
  | .data more => more + 1
  | _ => 0

/-- Answers that end a read with an error. -/
def SslRead.Fails : SslRead → Prop
  | .closeNotify | .eof | .error => True
  | _ => False

/-- The deadline does not pass while some bytes of the block have arrived and others have
not; `arrived` bytes are there before the answers. -/
def DeadlineSpares (len : ℕ) (timeoutMs start : UInt32) : (arrived : ℕ) → List ReadEvent → Prop
  | arrived, [] => arrived = 0 ∨ len ≤ arrived
  | arrived, event :: events =>
    len ≤ arrived ∨ event.result.Fails ∨
      if pastDeadline timeoutMs start event.tick then
        arrived + event.result.bytes = 0 ∨ len ≤ arrived + event.result.bytes
      else DeadlineSpares len timeoutMs start (arrived + event.result.bytes) events

/-- The deadline of a read of a block does not pass inside the block. -/
def ReadCall.OnTime (call : ReadCall) : Prop :=
  DeadlineSpares smpBlockSize call.timeoutMs call.start 0 call.events

/-- All reads of a step are on time. -/
def NetStep.OnTime : NetStep → Prop
  | .poll call _ _ => call.OnTime
  | .drain rounds => ∀ i < 10, (rounds i).1.OnTime
  | .command call => call.OnTime

/-- A full buffer is returned as it is. -/
theorem readExact_full {len : ℕ} (timeoutMs start : UInt32) (conn : Connection) (buf : Mem)
    (events : List ReadEvent) :
    readExact len timeoutMs start conn buf len events = ((len : ℤ), conn, buf) := by
  cases events with
  | nil => rw [readExact, if_neg (Nat.lt_irrefl len)]
  | cons event events => rw [readExact, if_neg (Nat.lt_irrefl len)]

/-- With bytes received a timeout returns their number. -/
theorem readTimeout_of_pos {received : ℕ} (h : 0 < received) : readTimeout received = received :=
  if_pos h

/-- The outcomes of a read that is on time, from a buffer that holds the stream from `first`
on: all bytes, none, or an error. -/
inductive ReadOutcome (len first : ℕ) (stream : Mem) (live : Bool) :
    ℤ × Connection × Mem → Prop where
  | whole (buf : Mem) (hlive : live = true) (hbuf : ∀ i < len, buf i = stream (first + i)) :
    ReadOutcome len first stream live ((len : ℤ), ⟨stream, first + len, live⟩, buf)
  | nothing (buf : Mem) : ReadOutcome len first stream live (-2, ⟨stream, first, live⟩, buf)
  | failed (pos : ℕ) (buf : Mem) :
    ReadOutcome len first stream live (-1, ⟨stream, pos, false⟩, buf)

/-- The delivered bytes are those of the stream. -/
theorem Connection.deliver_buf {conn : Connection} {buf : Mem} {first received : ℕ} (n : ℕ)
    (hpos : conn.pos = first + received)
    (hbuf : ∀ i < received, buf i = conn.stream (first + i)) :
    ∀ i < received + n, (conn.deliver buf received n).2 i = conn.stream (first + i) := by
  intro i hi
  simp only [deliver]
  by_cases hold : i < received
  · rw [if_neg (by omega), hbuf i hold]
  · rw [if_pos ⟨by omega, hi⟩, hpos]
    congr 1
    omega

/-- A read that is on time reads the block or nothing, or it fails. -/
theorem readExact_outcome {len : ℕ} (hlen : 0 < len) (timeoutMs start : UInt32) (first : ℕ)
    {conn : Connection} {buf : Mem} {received : ℕ} {events : List ReadEvent}
    (hpos : conn.pos = first + received)
    (hbuf : ∀ i < received, buf i = conn.stream (first + i)) (hle : received ≤ len)
    (hlive : 0 < received → conn.live = true)
    (hspares : DeadlineSpares len timeoutMs start received events) :
    ReadOutcome len first conn.stream conn.live
      (readExact len timeoutMs start conn buf received events) := by
  -- A full buffer ends the read, whatever the deadline does.
  have hfull : ∀ (conn : Connection) (buf : Mem), conn.pos = first + len →
      conn.live = true → (∀ i < len, buf i = conn.stream (first + i)) →
      ReadOutcome len first conn.stream conn.live ((len : ℤ), conn, buf) := by
    rintro ⟨stream, pos, live⟩ buf hpos hlive hbuf
    obtain rfl : pos = first + len := hpos
    exact .whole buf hlive hbuf
  induction events generalizing conn buf received with
  | nil =>
    rcases hspares with rfl | hmore
    · obtain rfl : conn.pos = first := hpos
      rw [readExact, if_pos hlen]
      exact .nothing buf
    · obtain rfl : received = len := Nat.le_antisymm hle hmore
      rw [readExact_full]
      exact hfull _ _ hpos (hlive hlen) hbuf
  | cons event events ih =>
    by_cases hmore : received < len
    · rw [DeadlineSpares] at hspares
      replace hspares := hspares.resolve_left (Nat.not_le_of_lt hmore)
      rw [readExact, if_pos hmore]
      by_cases hopen : conn.live = true
      · rw [if_pos hopen]
        -- An answer without bytes leaves the connection and the buffer.
        have hwait : event.result.bytes = 0 →
            ¬ event.result.Fails → ReadOutcome len first conn.stream conn.live
              (if pastDeadline timeoutMs start event.tick then (readTimeout received, conn, buf)
                else readExact len timeoutMs start conn buf received events) := by
          intro hbytes hfails
          replace hspares := hspares.resolve_left hfails
          rw [hbytes, Nat.add_zero] at hspares
          by_cases hlate : pastDeadline timeoutMs start event.tick = true
          · rw [if_pos hlate] at hspares ⊢
            obtain rfl : received = 0 := by omega
            obtain rfl : conn.pos = first := hpos
            exact .nothing buf
          · rw [if_neg hlate] at hspares ⊢
            exact ih hpos hbuf hle hlive hspares
        cases hresult : event.result with
        | closeNotify => exact .failed conn.pos buf
        | eof => exact .failed conn.pos buf
        | error => exact .failed conn.pos buf
        | wantRead =>
          rw [hresult] at hwait
          exact hwait rfl id
        | wantWrite =>
          rw [hresult] at hwait
          exact hwait rfl id
        | data more =>
          rw [hresult] at hspares
          replace hspares := hspares.resolve_left id
          have hbuf' := conn.deliver_buf (min (more + 1) (len - received)) hpos hbuf
          by_cases hwhole : len ≤ received + (more + 1)
          · have hn : received + min (more + 1) (len - received) = len := by omega
            have hend := hfull (conn.deliver buf received (min (more + 1) (len - received))).1
              (conn.deliver buf received (min (more + 1) (len - received))).2
              (by change conn.pos + _ = _; omega) hopen (by rw [hn] at hbuf'; exact hbuf')
            dsimp only
            by_cases hlate : pastDeadline timeoutMs start event.tick = true
            · rw [if_pos hlate, hn, readTimeout_of_pos hlen]
              exact hend
            · rw [if_neg hlate, hn, readExact_full]
              exact hend
          · have hn : min (more + 1) (len - received) = more + 1 := by omega
            rw [hn] at hbuf'
            dsimp only
            rw [hn]
            by_cases hlate : pastDeadline timeoutMs start event.tick = true
            · rw [if_pos hlate, SslRead.bytes] at hspares
              omega
            · rw [if_neg hlate] at hspares ⊢
              have hpos' : (conn.deliver buf received (more + 1)).1.pos =
                  first + (received + (more + 1)) := by
                change conn.pos + _ = _
                omega
              have hnext := ih hpos' hbuf' (by omega) (fun _ => hopen) hspares
              exact hnext
      · rw [if_neg hopen]
        exact .failed conn.pos buf
    · obtain rfl : received = len := by omega
      rw [readExact_full]
      exact hfull _ _ hpos (hlive hlen) hbuf

/-! ### Block alignment -/

/-- What a read of a block must do. -/
structure BlockRead.Aligned (read : BlockRead) : Prop where
  /-- A length comes with one complete block of the stream. -/
  block : 0 ≤ read.result → smpBlockSize ∣ read.first ∧ read.last = read.first + smpBlockSize ∧
    ∀ i < smpBlockSize, read.block i = read.stream (read.first + i)
  /-- A timeout loses no byte. -/
  timeout : read.result = -2 → read.last = read.first
  /-- A read that stops inside a block leaves a closed connection. -/
  inside : read.live = true → read.last = read.first ∨ read.last = read.first + smpBlockSize

/-- Reads on one connection follow each other without a gap. -/
def Consecutive (reads : List BlockRead) : Prop :=
  reads.IsChain fun a b => a.epoch = b.epoch → b.first = a.last

/-- The invariant of the network task. -/
structure NetAligned (net : NetTask) : Prop where
  aligned : ∀ read ∈ net.reads, read.Aligned
  consecutive : Consecutive net.reads
  boundary : net.conn.live = true → smpBlockSize ∣ net.conn.pos
  last : ∀ read ∈ net.reads.getLast?, read.epoch ≤ net.epoch ∧
    (read.epoch = net.epoch → read.last = net.conn.pos)
  toApp : ∀ frame ∈ net.toApp, ∃ read ∈ net.reads, 0 < read.result ∧
    frame = window read.stream read.first (read.result.toNat + 2)

/-- The outcomes of `smp_read_block` on time: a block, nothing, or an error. -/
theorem smpReadBlock_onTime (conn : Connection) {call : ReadCall} (htime : call.OnTime) :
    (∃ block : Mem, conn.live = true ∧
      (∀ i < smpBlockSize, block i = conn.stream (conn.pos + i)) ∧
      ((smpReadBlock conn call).1 = -3 ∨ (smpReadBlock conn call).1 = read16 block 0 ∧
        read16 block 0 ≤ smpBlockSize - 2) ∧
      (smpReadBlock conn call).2 =
        (⟨conn.stream, conn.pos + smpBlockSize, conn.live⟩, block)) ∨
      (∃ block, smpReadBlock conn call = (-2, conn, block)) ∨
      ∃ pos block, smpReadBlock conn call = (-1, ⟨conn.stream, pos, false⟩, block) := by
  have hread := readExact_outcome (by decide) call.timeoutMs call.start conn.pos
    (Nat.add_zero _).symm (by intro i hi; omega : ∀ i < 0, call.block i = conn.stream (conn.pos + i))
    (Nat.zero_le _) (fun h => absurd h (Nat.lt_irrefl 0)) htime
  rw [smpReadBlock]
  generalize readExact smpBlockSize call.timeoutMs call.start conn call.block 0 call.events =
    outcome at hread
  cases hread with
  | whole block hlive hblock =>
    left
    refine ⟨block, hlive, hblock, ?_⟩
    dsimp only
    rw [if_neg (by omega)]
    by_cases hlong : read16 block 0 > smpBlockSize - 2
    · rw [if_pos hlong]
      exact ⟨Or.inl rfl, rfl⟩
    · rw [if_neg hlong]
      exact ⟨Or.inr ⟨rfl, by omega⟩, rfl⟩
  | nothing block => exact Or.inr (Or.inl ⟨block, rfl⟩)
  | failed pos block => exact Or.inr (Or.inr ⟨pos, block, rfl⟩)

/-- The record of a read on time. -/
theorem blockRead_aligned {conn : Connection} {call : ReadCall} (htime : call.OnTime)
    (hboundary : conn.live = true → smpBlockSize ∣ conn.pos) (epoch : ℕ) :
    BlockRead.Aligned ⟨epoch, conn.stream, conn.pos, (smpReadBlock conn call).2.1.pos,
      (smpReadBlock conn call).2.1.live, (smpReadBlock conn call).1,
      (smpReadBlock conn call).2.2⟩ := by
  rcases smpReadBlock_onTime conn htime with
    ⟨block, hlive, hblock, hresult, hrest⟩ | ⟨block, hnothing⟩ | ⟨pos, block, hfailed⟩
  · rw [hrest]
    refine ⟨fun _ => ⟨hboundary hlive, rfl, hblock⟩, fun htimeout => ?_, fun _ => Or.inr rfl⟩
    dsimp only at htimeout
    rcases hresult with hlong | ⟨hlen, _⟩ <;> omega
  · rw [hnothing]
    exact ⟨fun h => absurd h (by simp), fun _ => rfl, fun _ => Or.inl rfl⟩
  · rw [hfailed]
    exact ⟨fun h => absurd h (by simp), fun h => absurd h (by simp), fun h => absurd h (by simp)⟩

/-- A read on time keeps the invariant, and a frame it returns is a part of the stream. -/
theorem NetAligned.readBlock {net : NetTask} (h : NetAligned net) {call : ReadCall}
    (htime : call.OnTime) : NetAligned (net.readBlock call).1 ∧
      (0 < (net.readBlock call).2.1 → ∃ read ∈ (net.readBlock call).1.reads, 0 < read.result ∧
        window (net.readBlock call).2.2 0 ((net.readBlock call).2.1.toNat + 2) =
          window read.stream read.first (read.result.toNat + 2)) := by
  have hnew := blockRead_aligned htime h.boundary net.epoch
  rw [NetTask.readBlock]
  refine ⟨⟨?_, ?_, ?_, ?_, ?_⟩, ?_⟩
  · intro read hmem
    rcases List.mem_append.mp hmem with hold | hlast
    · exact h.aligned read hold
    · rw [List.mem_singleton.mp hlast]
      exact hnew
  · refine List.isChain_append.mpr ⟨h.consecutive, List.isChain_singleton _, ?_⟩
    intro old hold new hnew hepoch
    obtain rfl := Option.some.inj hnew
    exact ((h.last old hold).2 hepoch).symm
  · intro hlive
    dsimp only at hlive ⊢
    rcases smpReadBlock_onTime net.conn htime with
      ⟨block, hopen, _, _, hrest⟩ | ⟨block, hnothing⟩ | ⟨pos, block, hfailed⟩
    · rw [hrest]
      exact (Nat.dvd_add_self_right).mpr (h.boundary hopen)
    · rw [hnothing] at hlive ⊢
      exact h.boundary hlive
    · rw [hfailed] at hlive
      cases hlive
  · intro read hlast
    rw [List.getLast?_append, List.getLast?_singleton] at hlast
    obtain rfl := Option.some.inj hlast
    exact ⟨Nat.le_refl _, fun _ => rfl⟩
  · intro frame hframe
    obtain ⟨read, hmem, hread⟩ := h.toApp frame hframe
    exact ⟨read, List.mem_append_left _ hmem, hread⟩
  · intro hpos
    refine ⟨_, List.mem_append_right _ (List.mem_singleton_self _), hpos, ?_⟩
    dsimp only at hpos ⊢
    rcases smpReadBlock_onTime net.conn htime with
      ⟨block, _, hblock, hresult, hrest⟩ | ⟨block, hnothing⟩ | ⟨pos, block, hfailed⟩
    · have hlen : (smpReadBlock net.conn call).1.toNat + 2 ≤ smpBlockSize := by
        rw [smpBlockSize] at hresult ⊢
        omega
      rw [hrest]
      apply List.map_congr_left
      intro i hi
      rw [Nat.zero_add]
      exact hblock i (Nat.lt_of_lt_of_le (List.mem_range.mp hi) hlen)
    · rw [hnothing] at hpos
      exact absurd hpos (by simp)
    · rw [hfailed] at hpos
      exact absurd hpos (by simp)

/-- Forwarding a frame of the stream keeps the invariant. -/
theorem NetAligned.forward {net : NetTask} (h : NetAligned net) {block : Mem} {contentLen : ℕ}
    (hframe : ∃ read ∈ net.reads, 0 < read.result ∧
      window block 0 (contentLen + 2) = window read.stream read.first (read.result.toNat + 2))
    (room : Bool) : NetAligned (net.forward block contentLen room) := by
  rw [NetTask.forward]
  split
  · refine { h with toApp := ?_ }
    intro frame hmem
    rcases List.mem_append.mp hmem with hold | hnew
    · exact h.toApp frame hold
    · rw [List.mem_singleton.mp hnew]
      exact hframe
  · exact h

/-- The drain keeps the invariant. -/
theorem NetAligned.drain {rounds : ℕ → ReadCall × Bool} (maxRounds : ℕ) {i : ℕ} {net : NetTask}
    (h : NetAligned net) (htime : ∀ j < maxRounds, (rounds (i + j)).1.OnTime) :
    NetAligned (net.drainPendingFrames rounds maxRounds i) := by
  induction maxRounds generalizing i net with
  | zero => exact h
  | succ maxRounds ih =>
    obtain ⟨hread, hframe⟩ := h.readBlock (htime 0 (Nat.succ_pos _))
    rw [Nat.add_zero] at hread hframe
    rw [NetTask.drainPendingFrames]
    dsimp only
    by_cases hstop : (net.readBlock (rounds i).1).2.1 ≤ 0
    · rw [if_pos hstop]
      exact hread
    · rw [if_neg hstop]
      refine ih (hread.forward (hframe (by omega)) _) ?_
      intro j hj
      have hnext := htime (j + 1) (by omega)
      rwa [show i + (j + 1) = i + 1 + j by omega] at hnext

/-- The read of the main loop keeps the invariant. -/
theorem NetAligned.poll {net : NetTask} (h : NetAligned net) {call : ReadCall}
    (htime : call.OnTime) (room : Bool) (next : Mem) : NetAligned (net.poll call room next) := by
  obtain ⟨hread, hframe⟩ := h.readBlock htime
  rw [NetTask.poll]
  dsimp only
  by_cases hpos : (net.readBlock call).2.1 > 0
  · rw [if_pos hpos]
    exact hread.forward (hframe hpos) room
  · rw [if_neg hpos]
    by_cases hwait : (net.readBlock call).2.1 = -2
    · rw [if_pos hwait]
      exact hread
    · rw [if_neg hwait]
      -- The new connection starts at a block boundary, with a number of its own.
      refine { hread with boundary := fun _ => Nat.dvd_zero _, last := ?_ }
      intro read hlast
      obtain ⟨hle, _⟩ := hread.last read hlast
      exact ⟨Nat.le_succ_of_le hle, fun hsame => absurd hsame (by dsimp only; omega)⟩

/-- A step whose reads are on time keeps the invariant. -/
theorem NetAligned.step {net : NetTask} (h : NetAligned net) {step : NetStep}
    (htime : step.OnTime) : NetAligned (net.step step) := by
  cases step with
  | poll call room next => exact h.poll htime room next
  | drain rounds =>
    refine NetAligned.drain 10 h ?_
    intro j hj
    rw [Nat.zero_add]
    exact htime j hj
  | command call => exact (h.readBlock htime).1

/-- Framing stays aligned in every run in which no deadline passes inside a block: every
length returned comes with one whole block, blocks follow each other without a gap, and every
frame forwarded to the App Task is the start of a block of the stream. -/
theorem framing_aligned (stream : Mem) {steps : List NetStep}
    (htime : ∀ step ∈ steps, step.OnTime) :
    let net := runFrom NetTask.step (NetTask.boot stream) steps
    (∀ read ∈ net.reads, read.Aligned) ∧ Consecutive net.reads ∧
      ∀ frame ∈ net.toApp, ∃ read ∈ net.reads, 0 < read.result ∧
        frame = window read.stream read.first (read.result.toNat + 2) := by
  intro net
  have hstart : NetAligned (NetTask.boot stream) :=
    { aligned := fun _ h => absurd h List.not_mem_nil
      consecutive := List.IsChain.nil
      boundary := fun _ => Nat.dvd_zero _
      last := fun _ h => by cases h
      toApp := fun _ h => absurd h List.not_mem_nil }
  have hend : NetAligned net :=
    runFrom_invariant_of_mem (fun step hmem _ h => h.step (htime step hmem)) _ hstart
  exact ⟨hend.aligned, hend.consecutive, hend.toApp⟩

/-- A stream of empty frames of five bytes. -/
def fiveByteFrames : Mem := fun i => if i % smpBlockSize = 1 then 5 else 0

/-- A read in which the given bytes arrive at once. -/
def burst (more : ℕ) : ReadCall := ⟨1000, 0, fun _ => 0, [⟨.data more, 10⟩]⟩

/-- Two blocks that arrive whole. -/
theorem framing_aligned_two_blocks :
    Consecutive (runFrom NetTask.step (NetTask.boot fiveByteFrames)
      [.poll (burst 16383) true fiveByteFrames, .command (burst 16383)]).reads :=
  (framing_aligned fiveByteFrames (by
    intro step hstep
    simp only [List.mem_cons, List.not_mem_nil, or_false] at hstep
    rcases hstep with rfl | rfl
    · exact Or.inr (Or.inr (Or.inr (Nat.le_refl _)))
    · exact Or.inr (Or.inr (Or.inr (Nat.le_refl _))))).2.1

/-- When the deadline passes after one hundred bytes, a length is returned for a part of a
block, and the next read starts inside it. -/
theorem framing_misaligned_after_slow_block :
    ¬ ∀ read ∈ (runFrom NetTask.step (NetTask.boot fiveByteFrames)
      [.poll (burst 99) true fiveByteFrames, .command (burst 16383)]).reads, read.Aligned := by
  intro h
  have hread := h _ List.mem_cons_self
  have hblock := (hread.block (by decide)).2.1
  revert hblock
  decide

end SimpleGo
