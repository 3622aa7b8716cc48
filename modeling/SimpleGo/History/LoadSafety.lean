import SimpleGo.History.Refinement
import SimpleGo.Lib.Logged

/-!
# The accesses of a history load

`smp_history_load_recent` once more, with the bytes it reads and writes listed: the buffer, the
array of offsets, the output entries. The header and the length fields of the file are not
authenticated, and the sizes are computed from them by unsigned subtraction.

A length field below 2 wraps: `buf_used + 2 + data_len` passes the check of the read loop as
`buf_used + rec_len`, and `fread` is asked for 4 GB. A record that authenticates is parsed
without a look at its length; the file's version, in the clear, says where its text length is.
What lies behind the plaintext, the tag first, is then handed out as text.
-/

namespace SimpleGo

open Lib Logged

variable {K : Type}

/-! ### The load with its accesses -/

/-- One byte of the buffer of `alloc` bytes written, one byte of it read for the record of
`recLen` bytes at `off`, one byte read for the message in a plaintext of `ctLen` bytes, one byte
of an output entry written, or one element of `offsets` written. -/
inductive LoadAccess where
  | bufWrite (alloc pos : ℕ)
  | bufRead (off recLen pos : ℕ)
  | plainRead (ctLen pos : ℕ)
  | outWrite (entry byte : ℕ)
  | offsetWrite (index : ℕ)

/-- `sizeof(history_message_t)`. -/
def historyMessageSize : ℕ := 4120

/-- The offset of `text`, an array of `HISTORY_MAX_TEXT` bytes before the padding. -/
def historyTextOffset : ℕ := 18

/-- An access stays where it may go: in the buffer, in the record, in the plaintext, in the
`count` output entries, in `offsets`. -/
def LoadAccess.Inside (count : ℤ) : LoadAccess → Prop
  | bufWrite alloc pos => pos < alloc
  | bufRead off recLen pos => off ≤ pos ∧ pos < off + recLen
  | plainRead ctLen pos => pos < ctLen
  | outWrite entry byte => (entry : ℤ) < count ∧ byte < historyMessageSize
  | offsetWrite index => index < historyMaxLoad

/-- `historyReadRecords`; record `index` is read next. -/
def historyReadRecordsLogged (file : List UInt8) (start bufAlloc : ℕ) :
    (index records used : ℕ) → Logged LoadAccess (List ℕ × ℕ)
  | _, 0, used => pure ([], used)
  | index, records + 1, used =>
    match historyRecordLen file (start + used) with
    | none => pure ([], used)
    | some recLen =>
      let dataLen := (4294967294 + recLen) % 4294967296
      if (used + 2 + dataLen) % 4294967296 > bufAlloc then pure ([], used)
      else do
        note [.offsetWrite index]
        note ((List.range' used 2).map (.bufWrite bufAlloc))
        note ((List.range' (used + 2) (min dataLen (file.length - (start + used + 2)))).map
          (.bufWrite bufAlloc))
        if file.length < start + used + 2 + dataLen then pure ([], file.length - start)
        else do
          let rest ← historyReadRecordsLogged file start bufAlloc (index + 1) records
            (used + 2 + dataLen)
          pure (used :: rest.1, rest.2)

/-- `historyParse`; the offsets are those behind the plaintext. -/
def historyParseLogged (header : HistoryHeader) (msgIdx : UInt16) (plaintext : Mem) :
    Logged ℕ HistoryMessage := do
  let p := if header.version ≥ 2 then 2 else 1
  let direction ← byteAt plaintext 0
  let status ← (if header.version ≥ 2 then byteAt plaintext 1 else pure 0 : Logged ℕ UInt8)
  let timestamp ← reads p 8 (read64 plaintext p)
  let length ← read16At plaintext (p + 8)
  let textLen := min length historyMaxText
  let text ← reads (p + 10) textLen fun i : ℕ => if i < textLen then plaintext (p + 10 + i) else 0
  pure
    { direction := direction
      deliveryStatus := historyShownStatus direction status msgIdx header.lastDeliveredIdx
      timestamp := timestamp.toInt64
      textLen := UInt16.ofNat textLen
      text := text }

/-- `historyOpenRecord` into output entry `loaded`. The decryption is in place, and the
terminator is written behind the text. -/
def historyOpenRecordLogged (H : HistoryOpening K) (key : K) (header : HistoryHeader)
    (rawBuf : Mem) (bufAlloc loaded : ℕ) (msgIdx : UInt16) (off : ℕ) :
    Logged LoadAccess (Option HistoryMessage) := do
  let recLen ← (read16At rawBuf off).mapLog (.bufRead off (read16 rawBuf off))
  let ctLen := (4294967266 + recLen) % 4294967296
  if ctLen > 11 + historyMaxPayload then pure none
  else do
    let iv ← (windowBytesAt rawBuf (off + 2) 12).mapLog (.bufRead off recLen)
    let ciphertext ← (windowAt rawBuf (off + 14) ctLen).mapLog (.bufRead off recLen)
    let tag ← (windowBytesAt rawBuf (off + 14 + ctLen) 16).mapLog (.bufRead off recLen)
    note ((List.range' (off + 14) ctLen).map (.bufWrite bufAlloc))
    match H.gcmDecrypt key iv ciphertext tag with
    | none => pure none
    | some plaintext => do
      note ((List.range' 0 historyMessageSize).map (.outWrite loaded))
      let msg ← (historyParseLogged header msgIdx
        (memOf plaintext fun i => rawBuf (off + 14 + i))).mapLog (.plainRead ctLen)
      note ((List.range' historyTextOffset (msg.textLen.toNat + 1)).map (.outWrite loaded))
      pure (some msg)

/-- `historyOpenRecords` into the output from entry `loaded` on. -/
def historyOpenRecordsLogged (H : HistoryOpening K) (key : K) (header : HistoryHeader)
    (rawBuf : Mem) (bufAlloc : ℕ) :
    (loaded index : ℕ) → (offsets : List ℕ) → Logged LoadAccess (List HistoryMessage)
  | _, _, [] => pure []
  | loaded, index, off :: offsets => do
    let opened ← historyOpenRecordLogged H key header rawBuf bufAlloc loaded (UInt16.ofNat index)
      off
    match opened with
    | none => historyOpenRecordsLogged H key header rawBuf bufAlloc loaded (index + 1) offsets
    | some msg => do
      let rest ← historyOpenRecordsLogged H key header rawBuf bufAlloc (loaded + 1) (index + 1)
        offsets
      pure (msg :: rest)

/-- `historyLoadFrom`. -/
def historyLoadFromLogged (H : HistoryOpening K) (key : K) (header : HistoryHeader)
    (file : List UInt8) (startIdx toLoad : ℤ) (heap : Mem) :
    Logged LoadAccess (EspErr × List HistoryMessage) :=
  let bufAlloc := (toLoad * 16041 % 4294967296).toNat
  match historySkip file startIdx.toNat historyHeaderSize with
  | none => pure (.fail, [])
  | some start => do
    let (offsets, used) ← historyReadRecordsLogged file start bufAlloc 0
      (min toLoad.toNat historyMaxLoad) 0
    let rawBuf : Mem := fun i => if i < used then file.getD (start + i) 0 else heap i
    let msgs ← historyOpenRecordsLogged H key header rawBuf bufAlloc 0 startIdx.toNat offsets
    pure (.ok, msgs)

/-- `smpHistoryLoadRecent`. -/
def smpHistoryLoadRecentLogged (H : HistoryOpening K) (dev : HistoryDevice K) (slot : UInt8)
    (count : ℤ) (faults : LoadFaults) (heap : Mem) :
    Logged LoadAccess (EspErr × List HistoryMessage) :=
  if !dev.initialized then pure (.invalidState, [])
  else if !faults.sdAvailable then pure (.notFound, [])
  else if slot ≥ 128 then pure (.invalidArg, [])
  else
    match faults.deriveKey with
    | some err => pure (err, [])
    | none =>
      let key := historyDeriveKey H.toHistoryPrimitives dev.masterKey slot
      if !faults.lock then pure (.timeout, [])
      else
        match if faults.openRead then dev.sd (historyBuildPath slot) else none with
        | none => pure (.ok, [])
        | some content =>
          let file := content.take faults.readable
          match HistoryHeader.read file with
          | none => pure (.fail, [])
          | some header =>
            let msgCount : ℤ := header.msgCount.toNat
            if msgCount = 0 then pure (.ok, [])
            else
              let startIdx := historyStartIdx msgCount count
              let toLoad := min (msgCount - startIdx) count
              if !faults.alloc then pure (.noMem, [])
              else historyLoadFromLogged H key header file startIdx toLoad heap

/-! ### It computes what the load computes -/

/-- The log leaves what is read. -/
theorem historyReadRecordsLogged_val (file : List UInt8) (start bufAlloc : ℕ)
    (index records used : ℕ) :
    (historyReadRecordsLogged file start bufAlloc index records used).val =
      historyReadRecords file start bufAlloc records used := by
  induction records generalizing index used with
  | zero => rfl
  | succ records ih =>
    rw [historyReadRecordsLogged, historyReadRecords]
    cases historyRecordLen file (start + used) with
    | none => rfl
    | some recLen =>
      simp only [↓val_ite, val_bind, val_pure, ih]

/-- The log leaves the parsed record. -/
theorem historyParseLogged_val (header : HistoryHeader) (msgIdx : UInt16) (plaintext : Mem) :
    (historyParseLogged header msgIdx plaintext).val = historyParse header msgIdx plaintext := by
  simp only [historyParseLogged, historyParse, val_bind, val_byteAt, ↓val_ite, val_pure,
    val_reads, val_read16At]
  rfl

/-- The log leaves an opened record. -/
theorem historyOpenRecordLogged_val (H : HistoryOpening K) (key : K) (header : HistoryHeader)
    (rawBuf : Mem) (bufAlloc loaded : ℕ) (msgIdx : UInt16) (off : ℕ) :
    (historyOpenRecordLogged H key header rawBuf bufAlloc loaded msgIdx off).val =
      historyOpenRecord H key header rawBuf msgIdx off := by
  rw [historyOpenRecordLogged, historyOpenRecord, val_bind, val_mapLog, val_read16At]
  by_cases hlen : (4294967266 + read16 rawBuf off) % 4294967296 > 11 + historyMaxPayload
  · rw [if_pos hlen, if_pos hlen]
    rfl
  · rw [if_neg hlen, if_neg hlen]
    simp only [val_bind, val_mapLog, val_windowBytesAt, val_windowAt]
    cases H.gcmDecrypt key (windowBytes rawBuf (off + 2) 12)
      (window rawBuf (off + 14) ((4294967266 + read16 rawBuf off) % 4294967296))
      (windowBytes rawBuf (off + 14 + (4294967266 + read16 rawBuf off) % 4294967296) 16) with
    | none => rfl
    | some plaintext => simp only [val_bind, val_mapLog, val_pure, historyParseLogged_val]

/-- The log leaves all opened records. -/
theorem historyOpenRecordsLogged_val (H : HistoryOpening K) (key : K) (header : HistoryHeader)
    (rawBuf : Mem) (bufAlloc loaded index : ℕ) (offsets : List ℕ) :
    (historyOpenRecordsLogged H key header rawBuf bufAlloc loaded index offsets).val =
      historyOpenRecords H key header rawBuf index offsets := by
  induction offsets generalizing loaded index with
  | nil => rfl
  | cons off offsets ih =>
    rw [historyOpenRecordsLogged, historyOpenRecords, val_bind, historyOpenRecordLogged_val]
    cases historyOpenRecord H key header rawBuf (UInt16.ofNat index) off with
    | none => exact ih loaded (index + 1)
    | some msg => simp only [val_bind, val_pure, ih]

/-- The log leaves the result of the load. -/
theorem historyLoadFromLogged_val (H : HistoryOpening K) (key : K) (header : HistoryHeader)
    (file : List UInt8) (startIdx toLoad : ℤ) (heap : Mem) :
    (historyLoadFromLogged H key header file startIdx toLoad heap).val =
      historyLoadFrom H key header file startIdx toLoad heap := by
  rw [historyLoadFromLogged, historyLoadFrom]
  cases historySkip file startIdx.toNat historyHeaderSize with
  | none => rfl
  | some start =>
    simp only [val_bind, val_pure, historyReadRecordsLogged_val, historyOpenRecordsLogged_val]

/-- Listing the accesses does not change the load. -/
theorem smpHistoryLoadRecentLogged_val (H : HistoryOpening K) (dev : HistoryDevice K)
    (slot : UInt8) (count : ℤ) (faults : LoadFaults) (heap : Mem) :
    (smpHistoryLoadRecentLogged H dev slot count faults heap).val =
      smpHistoryLoadRecent H dev slot count faults heap := by
  rw [smpHistoryLoadRecentLogged, smpHistoryLoadRecent]
  cases dev.initialized with
  | false => rfl
  | true =>
    cases faults.sdAvailable with
    | false => rfl
    | true =>
      by_cases hslot : slot ≥ 128
      · simp only [if_pos hslot, Bool.not_true, Bool.false_eq_true, if_false, val_pure]
      · simp only [if_neg hslot, Bool.not_true, Bool.false_eq_true, if_false]
        cases faults.deriveKey with
        | some err => rfl
        | none =>
          cases faults.lock with
          | false => rfl
          | true =>
            simp only [Bool.not_true, Bool.false_eq_true, if_false]
            cases (if faults.openRead then dev.sd (historyBuildPath slot) else none) with
            | none => rfl
            | some content =>
              simp only
              cases HistoryHeader.read (content.take faults.readable) with
              | none => rfl
              | some header => simp only [↓val_ite, val_pure, historyLoadFromLogged_val]

/-! ### When a load is safe -/

/-- A file as memory. -/
def fileMem (file : List UInt8) : Mem := fun i => file.getD i 0

/-- The text length that a plaintext declares. -/
def historyTextLength (header : HistoryHeader) (plaintext : Mem) : ℕ :=
  read16 plaintext ((if header.version ≥ 2 then 2 else 1) + 8)

/-- Where the text of a plaintext ends. -/
def historyTextEnd (header : HistoryHeader) (plaintext : Mem) : ℕ :=
  let p := if header.version ≥ 2 then 2 else 1
  p + 10 + min (read16 plaintext (p + 8)) historyMaxText

/-- The record at a position of a file authenticates, with this plaintext. -/
structure RecordOpens (H : HistoryOpening K) (key : K) (file : List UInt8) (pos : ℕ)
    (plaintext : List UInt8) : Prop where
  whole : 30 ≤ read16 (fileMem file) pos
  short : read16 (fileMem file) pos - 30 ≤ 11 + historyMaxPayload
  opened : H.gcmDecrypt key (windowBytes (fileMem file) (pos + 2) 12)
    (window (fileMem file) (pos + 14) (read16 (fileMem file) pos - 30))
    (windowBytes (fileMem file) (pos + 14 + (read16 (fileMem file) pos - 30)) 16) = some plaintext

/-- If the record at a position authenticates, its text ends in its plaintext. -/
def RecordFits (H : HistoryOpening K) (key : K) (header : HistoryHeader) (file : List UInt8)
    (pos : ℕ) : Prop :=
  ∀ plaintext, RecordOpens H key file pos plaintext →
    historyTextEnd header (memOf plaintext fun _ => 0) ≤ plaintext.length

/-- The records from `start + used` on, as far as they are whole and the buffer has room: a
length field below 2 is met only when the rest of the file has room too, and each record meets
the condition. -/
def WindowFits (file : List UInt8) (start bufAlloc : ℕ) (fits : ℕ → Prop) :
    (records used : ℕ) → Prop
  | 0, _ => True
  | records + 1, used =>
    match historyRecordLen file (start + used) with
    | none => True
    | some recLen =>
      if bufAlloc < used + recLen then True
      else if recLen < 2 then file.length ≤ start + bufAlloc
      else if file.length < start + used + recLen then True
      else fits (start + used) ∧ WindowFits file start bufAlloc fits records (used + recLen)

/-- The load gets to the records of the file: nothing fails before, and it counts messages. -/
structure LoadReaches (dev : HistoryDevice K) (slot : UInt8) (faults : LoadFaults)
    (content : List UInt8) (header : HistoryHeader) : Prop where
  initialized : dev.initialized = true
  sdAvailable : faults.sdAvailable = true
  slot_lt : slot < 128
  deriveKey : faults.deriveKey = none
  lock : faults.lock = true
  openRead : faults.openRead = true
  file : dev.sd (historyBuildPath slot) = some content
  readHeader : HistoryHeader.read (content.take faults.readable) = some header
  counted : header.msgCount.toNat ≠ 0
  alloc : faults.alloc = true

/-- The records that the load would read fit. -/
def LoadFits (H : HistoryOpening K) (dev : HistoryDevice K) (slot : UInt8) (count : ℤ)
    (faults : LoadFaults) : Prop :=
  ∀ content header start, LoadReaches dev slot faults content header →
    let file := content.take faults.readable
    let startIdx := historyStartIdx header.msgCount.toNat count
    let toLoad := (min (header.msgCount.toNat - startIdx) count).toNat
    historySkip file startIdx.toNat historyHeaderSize = some start →
      WindowFits file start (toLoad * 16041)
        (RecordFits H (historyDeriveKey H.toHistoryPrimitives dev.masterKey slot) header file)
        toLoad 0

/-- A message is the parsed content of a record of the file that authenticates: the record lies
whole in the file where the length fields before it lead, and the message is read from its
plaintext alone. -/
def IsRecordContent (H : HistoryOpening K) (key : K) (header : HistoryHeader) (file : List UInt8)
    (msg : HistoryMessage) : Prop :=
  ∃ index pos plaintext, historySkip file index historyHeaderSize = some pos ∧
    pos + read16 (fileMem file) pos ≤ file.length ∧ RecordOpens H key file pos plaintext ∧
    historyTextEnd header (memOf plaintext fun _ => 0) ≤ plaintext.length ∧
    msg = historyParse header (UInt16.ofNat index) (memOf plaintext fun _ => 0)

/-- What a load is to do: its accesses stay inside, and it returns contents of authenticated
records. -/
structure LoadSafe (H : HistoryOpening K) (dev : HistoryDevice K) (slot : UInt8) (count : ℤ)
    (faults : LoadFaults) (heap : Mem) : Prop where
  inside : (smpHistoryLoadRecentLogged H dev slot count faults heap).All (LoadAccess.Inside count)
  authentic : ∀ msg ∈ (smpHistoryLoadRecent H dev slot count faults heap).2,
    ∃ content header, dev.sd (historyBuildPath slot) = some content ∧
      HistoryHeader.read (content.take faults.readable) = some header ∧
      IsRecordContent H (historyDeriveKey H.toHistoryPrimitives dev.masterKey slot) header
        (content.take faults.readable) msg

/-! ### The read loop -/

/-- A length field is read from two bytes of the file. -/
theorem historyRecordLen_eq_some {file : List UInt8} {pos recLen : ℕ}
    (h : historyRecordLen file pos = some recLen) :
    read16 (fileMem file) pos = recLen ∧ pos + 2 ≤ file.length := by
  rw [historyRecordLen] at h
  cases hhigh : file[pos]? with
  | none => simp [hhigh] at h
  | some high =>
    cases hlow : file[pos + 1]? with
    | none => simp [hhigh, hlow] at h
    | some low =>
      simp only [hhigh, hlow, Option.some.injEq] at h
      obtain ⟨hlt, -⟩ := List.getElem?_eq_some_iff.mp hlow
      refine ⟨?_, hlt⟩
      simpa only [read16, fileMem, List.getD_eq_getElem?_getD, hhigh, hlow, Option.getD_some]
        using h

/-- Writes into the buffer stay inside when the last one does. -/
theorem bufWrites_inside (count : ℤ) (bufAlloc p n : ℕ) :
    (note ((List.range' p n).map (.bufWrite bufAlloc))).All (LoadAccess.Inside count) ↔
      n = 0 ∨ p + n ≤ bufAlloc := by
  simp only [all_note, List.forall_mem_map, LoadAccess.Inside, List.mem_range'_1]
  constructor
  · intro h
    rcases Nat.eq_zero_or_pos n with hn | hn
    · exact Or.inl hn
    · have hlast := h (p + n - 1) ⟨by omega, by omega⟩
      exact Or.inr (by omega)
  · rintro h e ⟨hp, he⟩
    omega

/-- So do writes into an output entry. -/
theorem outWrites_inside {count : ℤ} {entry p n : ℕ} (hentry : (entry : ℤ) < count)
    (hlen : p + n ≤ historyMessageSize) :
    (note ((List.range' p n).map (.outWrite entry))).All (LoadAccess.Inside count) := by
  simp only [all_note, List.forall_mem_map, LoadAccess.Inside, List.mem_range'_1]
  rintro e ⟨-, he⟩
  exact ⟨hentry, by omega⟩

/-- The read loop stays inside, and each record it reads meets a condition, exactly when the
window fits. -/
theorem historyReadRecordsLogged_inside (file : List UInt8) (start : ℕ) {bufAlloc : ℕ}
    (count : ℤ) (halloc : bufAlloc < 2147483648) (fits : ℕ → Prop) (index records used : ℕ)
    (hused : used ≤ bufAlloc) (hindex : index + records ≤ historyMaxLoad) :
    ((historyReadRecordsLogged file start bufAlloc index records used).All
        (LoadAccess.Inside count) ∧
      ∀ off ∈ (historyReadRecords file start bufAlloc records used).1, fits (start + off)) ↔
      WindowFits file start bufAlloc fits records used := by
  induction records generalizing index used with
  | zero => simp [historyReadRecordsLogged, historyReadRecords, WindowFits]
  | succ records ih =>
    rw [historyReadRecordsLogged, historyReadRecords, WindowFits]
    cases hlen : historyRecordLen file (start + used) with
    | none => simp
    | some recLen =>
      obtain ⟨hread, hfile⟩ := historyRecordLen_eq_some hlen
      have hlt : recLen < 65536 := hread ▸ read16_lt _ _
      have hcheck : (used + 2 + (4294967294 + recLen) % 4294967296) % 4294967296 =
          used + recLen := by omega
      simp only [hcheck]
      by_cases hover : bufAlloc < used + recLen
      · rw [if_pos hover, if_pos hover, if_pos hover]
        simp
      · rw [if_neg hover, if_neg hover, if_neg hover]
        have hoffset : (note [LoadAccess.offsetWrite index]).All (LoadAccess.Inside count) := by
          simp only [all_note, List.mem_singleton, forall_eq, LoadAccess.Inside]
          omega
        simp only [all_bind, hoffset, true_and, bufWrites_inside]
        by_cases hshort : recLen < 2
        · -- the data length wraps: the whole rest of the file is asked for
          rw [if_pos hshort]
          have hdata : (4294967294 + recLen) % 4294967296 = 4294967294 + recLen := by omega
          rw [hdata]
          by_cases hpart : file.length < start + used + 2 + (4294967294 + recLen)
          · rw [if_pos hpart, if_pos hpart]
            simp only [all_pure, and_true, List.not_mem_nil, false_implies, implies_true]
            omega
          · constructor
            · rintro ⟨⟨-, hwrites, -⟩, -⟩
              omega
            · intro hroom
              omega
        · rw [if_neg hshort]
          have hdata : (4294967294 + recLen) % 4294967296 = recLen - 2 := by omega
          have hnext : used + 2 + (recLen - 2) = used + recLen := by omega
          have hpos : start + used + 2 + (recLen - 2) = start + used + recLen := by omega
          simp only [hdata, hnext, hpos]
          have hwrites : (2 = 0 ∨ used + 2 ≤ bufAlloc) ∧
              (min (recLen - 2) (file.length - (start + used + 2)) = 0 ∨
                used + 2 + min (recLen - 2) (file.length - (start + used + 2)) ≤ bufAlloc) := by
            omega
          by_cases hpart : file.length < start + used + recLen
          · rw [if_pos hpart, if_pos hpart, if_pos hpart]
            simp only [hwrites, all_pure, and_self, List.not_mem_nil, false_implies, implies_true]
          · rw [if_neg hpart, if_neg hpart, if_neg hpart]
            have hrest := ih (index + 1) (used + recLen) (by omega) (by omega)
            rw [← hrest]
            simp only [hwrites, true_and, all_bind, all_pure, and_true, List.forall_mem_cons]
            tauto

/-- What the read loop says of the records it has read: they are whole, and the buffer holds
them. `rec_len` below 2 is a record of 4 GB. -/
theorem mem_historyReadRecords {file : List UInt8} {start bufAlloc records used off : ℕ}
    (h : off ∈ (historyReadRecords file start bufAlloc records used).1) :
    ∃ recLen, historyRecordLen file (start + off) = some recLen ∧
      start + (off + 2 + (4294967294 + recLen) % 4294967296) ≤ file.length ∧
      off + 2 + (4294967294 + recLen) % 4294967296 ≤
        (historyReadRecords file start bufAlloc records used).2 := by
  -- the position only moves on
  have hused : ∀ records used,
      used ≤ (historyReadRecords file start bufAlloc records used).2 := by
    intro records
    induction records with
    | zero => exact fun used => Nat.le_refl used
    | succ records ih =>
      intro used
      rw [historyReadRecords]
      cases hlen : historyRecordLen file (start + used) with
      | none => exact Nat.le_refl used
      | some recLen =>
        have hfile := (historyRecordLen_eq_some hlen).2
        have hrest := ih (used + 2 + (4294967294 + recLen) % 4294967296)
        dsimp only
        split_ifs
        · exact Nat.le_refl used
        · dsimp only
          omega
        · dsimp only
          omega
  induction records generalizing used with
  | zero => simp [historyReadRecords] at h
  | succ records ih =>
    rw [historyReadRecords] at h ⊢
    cases hlen : historyRecordLen file (start + used) with
    | none => simp [hlen] at h
    | some recLen =>
      simp only [hlen] at h ⊢
      by_cases hover : (used + 2 + (4294967294 + recLen) % 4294967296) % 4294967296 > bufAlloc
      · rw [if_pos hover] at h
        cases h
      · rw [if_neg hover] at h ⊢
        by_cases hpart :
            file.length < start + used + 2 + (4294967294 + recLen) % 4294967296
        · rw [if_pos hpart] at h
          cases h
        · rw [if_neg hpart] at h ⊢
          rcases List.mem_cons.mp h with rfl | hrest
          · have hnext := hused records (off + 2 + (4294967294 + recLen) % 4294967296)
            exact ⟨recLen, hlen, by omega, hnext⟩
          · exact ih hrest

/-- There are no more than asked for. -/
theorem historyReadRecords_length (file : List UInt8) (start bufAlloc records used : ℕ) :
    (historyReadRecords file start bufAlloc records used).1.length ≤ records := by
  induction records generalizing used with
  | zero => exact Nat.le_refl 0
  | succ records ih =>
    rw [historyReadRecords]
    cases historyRecordLen file (start + used) with
    | none => exact Nat.zero_le _
    | some recLen =>
      dsimp only
      split_ifs
      · exact Nat.zero_le _
      · exact Nat.zero_le _
      · exact Nat.succ_le_succ (ih _)

/-- In a window that fits the records read lie in the buffer, and are no shorter than their
length field. -/
theorem WindowFits.mem {file : List UInt8} {start bufAlloc : ℕ} {fits : ℕ → Prop}
    {records used off : ℕ} (halloc : bufAlloc < 2147483648) (hused : used ≤ bufAlloc)
    (h : WindowFits file start bufAlloc fits records used)
    (hmem : off ∈ (historyReadRecords file start bufAlloc records used).1) :
    2 ≤ read16 (fileMem file) (start + off) ∧
      off + read16 (fileMem file) (start + off) ≤ bufAlloc := by
  induction records generalizing used with
  | zero => simp [historyReadRecords] at hmem
  | succ records ih =>
    rw [historyReadRecords] at hmem
    rw [WindowFits] at h
    cases hlen : historyRecordLen file (start + used) with
    | none => simp [hlen] at hmem
    | some recLen =>
      obtain ⟨hread, hfile⟩ := historyRecordLen_eq_some hlen
      have hlt : recLen < 65536 := hread ▸ read16_lt _ _
      have hcheck : (used + 2 + (4294967294 + recLen) % 4294967296) % 4294967296 =
          used + recLen := by omega
      simp only [hlen, hcheck] at h hmem
      by_cases hover : bufAlloc < used + recLen
      · rw [if_pos hover] at hmem
        cases hmem
      · rw [if_neg hover] at h hmem
        by_cases hshort : recLen < 2
        · rw [if_pos hshort] at h
          rw [if_pos (by omega)] at hmem
          cases hmem
        · rw [if_neg hshort] at h
          have hpos : start + used + 2 + (4294967294 + recLen) % 4294967296 =
              start + used + recLen := by omega
          have hnext : used + 2 + (4294967294 + recLen) % 4294967296 = used + recLen := by omega
          rw [hpos, hnext] at hmem
          by_cases hpart : file.length < start + used + recLen
          · rw [if_pos hpart] at hmem
            cases hmem
          · rw [if_neg hpart] at h hmem
            rcases List.mem_cons.mp hmem with rfl | hrest
            · rw [hread]
              omega
            · exact ih (by omega) h.2 hrest

/-- In a window that fits a record lies where the length fields before it lead. -/
theorem WindowFits.skip {file : List UInt8} {start bufAlloc : ℕ} {fits : ℕ → Prop}
    {records used k off : ℕ} (halloc : bufAlloc < 2147483648) (hused : used ≤ bufAlloc)
    (h : WindowFits file start bufAlloc fits records used)
    (hget : (historyReadRecords file start bufAlloc records used).1[k]? = some off) :
    historySkip file k (start + used) = some (start + off) := by
  induction records generalizing used k with
  | zero => simp [historyReadRecords] at hget
  | succ records ih =>
    rw [historyReadRecords] at hget
    rw [WindowFits] at h
    cases hlen : historyRecordLen file (start + used) with
    | none => simp [hlen] at hget
    | some recLen =>
      obtain ⟨hread, hfile⟩ := historyRecordLen_eq_some hlen
      have hlt : recLen < 65536 := hread ▸ read16_lt _ _
      have hcheck : (used + 2 + (4294967294 + recLen) % 4294967296) % 4294967296 =
          used + recLen := by omega
      simp only [hlen, hcheck] at h hget
      by_cases hover : bufAlloc < used + recLen
      · rw [if_pos hover] at hget
        cases hget
      · rw [if_neg hover] at h hget
        by_cases hshort : recLen < 2
        · rw [if_pos hshort] at h
          rw [if_pos (by omega)] at hget
          cases hget
        · rw [if_neg hshort] at h
          have hpos : start + used + 2 + (4294967294 + recLen) % 4294967296 =
              start + used + recLen := by omega
          have hnext : used + 2 + (4294967294 + recLen) % 4294967296 = used + recLen := by omega
          rw [hpos, hnext] at hget
          by_cases hpart : file.length < start + used + recLen
          · rw [if_pos hpart] at hget
            cases hget
          · rw [if_neg hpart] at h hget
            cases k with
            | zero =>
              obtain rfl : used = off := Option.some.inj hget
              rfl
            | succ k =>
              rw [historySkip, hlen]
              have hrest := ih (by omega) h.2 hget
              rwa [← Nat.add_assoc] at hrest

/-! ### The decrypt loop -/

/-- The reads of the parse end where the text does. -/
theorem historyParseLogged_below (header : HistoryHeader) (msgIdx : UInt16) (plaintext : Mem)
    (bound : ℕ) :
    (historyParseLogged header msgIdx plaintext).Below bound ↔
      historyTextEnd header plaintext ≤ bound := by
  simp only [historyParseLogged, historyTextEnd, all_bind, below_byteAt, ↓all_ite, below_reads,
    below_read16At, val_read16At, all_pure, and_true]
  split_ifs with hversion <;> simp <;> omega

/-- Where the text ends is read from the bytes before it. -/
theorem historyTextEnd_congr {header : HistoryHeader} {m m' : Mem}
    (h : ∀ i < historyTextEnd header m, m i = m' i) :
    historyTextEnd header m = historyTextEnd header m' := by
  unfold historyTextEnd at h ⊢
  dsimp only at h ⊢
  generalize (if header.version ≥ 2 then 2 else 1) = p at h ⊢
  rw [show read16 m (p + 8) = read16 m' (p + 8) by
    rw [read16, read16, h (p + 8) (by omega), h (p + 8 + 1) (by omega)]]

/-- And so is the message. -/
theorem historyParse_congr {header : HistoryHeader} (msgIdx : UInt16) {m m' : Mem}
    (h : ∀ i < historyTextEnd header m, m i = m' i) :
    historyParse header msgIdx m = historyParse header msgIdx m' := by
  unfold historyTextEnd at h
  dsimp only at h
  have hstatus : (if header.version ≥ 2 then m 1 else 0) =
      (if header.version ≥ 2 then m' 1 else 0) := by
    split_ifs with hversion
    · rw [if_pos hversion] at h
      exact h 1 (by omega)
    · rfl
  unfold historyParse
  dsimp only
  rw [hstatus]
  clear hstatus
  generalize (if header.version ≥ 2 then 2 else 1) = p at h ⊢
  have hlength : read16 m (p + 8) = read16 m' (p + 8) := by
    rw [read16, read16, h (p + 8) (by omega), h (p + 8 + 1) (by omega)]
  have htime : read64 m p = read64 m' p := by
    rw [read64, read64, h p (by omega), h (p + 1) (by omega), h (p + 2) (by omega),
      h (p + 3) (by omega), h (p + 4) (by omega), h (p + 5) (by omega), h (p + 6) (by omega),
      h (p + 7) (by omega)]
  rw [hlength] at h
  rw [hlength, htime, h 0 (by omega)]
  congr 1
  funext i
  split_ifs with hi
  · exact h _ (by omega)
  · rfl

/-- A plaintext in which its text ends says so, whatever lies behind it. -/
theorem historyTextEnd_memOf {header : HistoryHeader} {plaintext : List UInt8} {rest : Mem}
    (rest' : Mem) (h : historyTextEnd header (memOf plaintext rest) ≤ plaintext.length) :
    ∀ i < historyTextEnd header (memOf plaintext rest),
      memOf plaintext rest i = memOf plaintext rest' i := by
  intro i hi
  have hlt : i < plaintext.length := Nat.lt_of_lt_of_le hi h
  simp [memOf, hlt]

/-- Whether the text ends inside the plaintext is seen from the plaintext alone. -/
theorem historyTextEnd_memOf_le_iff {header : HistoryHeader} {plaintext : List UInt8}
    (rest rest' : Mem) :
    historyTextEnd header (memOf plaintext rest) ≤ plaintext.length ↔
      historyTextEnd header (memOf plaintext rest') ≤ plaintext.length := by
  constructor
  · intro h
    rwa [← historyTextEnd_congr (historyTextEnd_memOf rest' h)]
  · intro h
    rwa [← historyTextEnd_congr (historyTextEnd_memOf rest h)]

/-- The plaintext is as long as the ciphertext. -/
theorem RecordOpens.length {H : HistoryOpening K} {key : K} {file : List UInt8} {pos : ℕ}
    {plaintext : List UInt8} (h : RecordOpens H key file pos plaintext) :
    plaintext.length = read16 (fileMem file) pos - 30 := by
  rw [H.gcmDecrypt_keystream h.opened, List.length_mapIdx, window_length]

/-- The text length is cut at `HISTORY_MAX_TEXT`. -/
theorem historyParse_textLen (header : HistoryHeader) (msgIdx : UInt16) (plaintext : Mem) :
    (historyParse header msgIdx plaintext).textLen.toNat ≤ 4096 := by
  have hmin : min (read16 plaintext ((if header.version ≥ 2 then 2 else 1) + 8)) historyMaxText ≤
      4096 := Nat.min_le_right ..
  rw [historyParse]
  dsimp only
  rw [UInt16.toNat_ofNat']
  exact (Nat.mod_le _ _).trans hmin

section Record

variable (H : HistoryOpening K) (key : K) (header : HistoryHeader) {file : List UInt8}
  {rawBuf : Mem} {start bufAlloc off : ℕ}

/-- The buffer holds a record of the file. -/
def HoldsRecord (file : List UInt8) (rawBuf : Mem) (start off : ℕ) : Prop :=
  ∀ i < off + read16 (fileMem file) (start + off), rawBuf i = fileMem file (start + i)

/-- Its windows are those of the file. -/
theorem HoldsRecord.window (h : HoldsRecord file rawBuf start off) {p n : ℕ}
    (hp : p + n ≤ read16 (fileMem file) (start + off)) :
    Lib.window rawBuf (off + p) n = Lib.window (fileMem file) (start + off + p) n := by
  apply List.map_congr_left
  intro i hi
  rw [List.mem_range] at hi
  rw [h _ (by omega)]
  congr 1
  omega

/-- A window inside a record is the one of the file. -/
theorem HoldsRecord.windowBytes (h : HoldsRecord file rawBuf start off) {p n : ℕ}
    (hp : p + n ≤ read16 (fileMem file) (start + off)) :
    Lib.windowBytes rawBuf (off + p) n = Lib.windowBytes (fileMem file) (start + off + p) n := by
  apply Vector.toList_inj.mp
  rw [windowBytes_toList, windowBytes_toList]
  exact h.window hp

/-- Its length is the one of the file. -/
theorem HoldsRecord.read16 (h : HoldsRecord file rawBuf start off)
    (hlen : 2 ≤ Lib.read16 (fileMem file) (start + off)) :
    Lib.read16 rawBuf off = Lib.read16 (fileMem file) (start + off) := by
  have h₀ := h off (by omega)
  have h₁ := h (off + 1) (by omega)
  rw [Lib.read16, h₀, h₁]
  rfl

/-- The length of the text is read from the first bytes behind the record's IV. -/
theorem HoldsRecord.textLength (h : HoldsRecord file rawBuf start off) (plaintext : List UInt8)
    (hlen : 30 ≤ Lib.read16 (fileMem file) (start + off)) :
    historyTextLength header (memOf plaintext fun i => rawBuf (off + 14 + i)) =
      historyTextLength header (memOf plaintext fun i => fileMem file (start + off + 14 + i)) := by
  have hsame : ∀ i < 16, memOf plaintext (fun i => rawBuf (off + 14 + i)) i =
      memOf plaintext (fun i => fileMem file (start + off + 14 + i)) i := by
    intro i hi
    have hbyte : rawBuf (off + 14 + i) = fileMem file (start + off + 14 + i) := by
      rw [h _ (by omega)]
      congr 1
      omega
    rw [memOf, memOf, hbyte]
  unfold historyTextLength
  split_ifs
  · rw [Lib.read16, Lib.read16, hsame _ (by omega), hsame _ (by omega)]
  · rw [Lib.read16, Lib.read16, hsame _ (by omega), hsame _ (by omega)]

/-- Reads of the buffer stay in the record when its bounds hold the first and the last. -/
theorem bufReads_inside {α : Type} (count : ℤ) {recLen p n : ℕ} (a : α) (hp : off ≤ p)
    (hn : p + n ≤ off + recLen) :
    ((reads p n a).mapLog (.bufRead off recLen)).All (LoadAccess.Inside count) := by
  rw [all_mapLog, all_reads]
  intro i hi
  exact ⟨by omega, by omega⟩

/-- A record in the buffer is opened inside its bounds exactly when it fits. -/
theorem historyOpenRecordLogged_inside {count : ℤ} {loaded : ℕ} (hloaded : (loaded : ℤ) < count)
    (msgIdx : UInt16) (hraw : HoldsRecord file rawBuf start off)
    (hlen : 2 ≤ read16 (fileMem file) (start + off))
    (halloc : off + read16 (fileMem file) (start + off) ≤ bufAlloc) :
    (historyOpenRecordLogged H key header rawBuf bufAlloc loaded msgIdx off).All
        (LoadAccess.Inside count) ↔ RecordFits H key header file (start + off) := by
  have hrec := hraw.read16 hlen
  have hlt := read16_lt (fileMem file) (start + off)
  have hmax : 11 + historyMaxPayload = 16011 := rfl
  have hword : ((read16At rawBuf off).mapLog
      (.bufRead off (read16 (fileMem file) (start + off)))).All (LoadAccess.Inside count) :=
    bufReads_inside count _ (Nat.le_refl off) (by omega)
  rw [historyOpenRecordLogged, RecordFits, all_bind, val_mapLog, val_read16At, hrec,
    and_iff_right hword]
  dsimp only
  by_cases hshort : read16 (fileMem file) (start + off) < 30
  · -- the length of the ciphertext wraps, and the record is passed over
    rw [if_pos (by omega)]
    refine iff_of_true (all_pure _) fun plaintext hopens => ?_
    have hwhole := hopens.whole
    omega
  · have hct : (4294967266 + read16 (fileMem file) (start + off)) % 4294967296 =
        read16 (fileMem file) (start + off) - 30 := by omega
    rw [hct]
    by_cases hlong : read16 (fileMem file) (start + off) - 30 > 11 + historyMaxPayload
    · rw [if_pos hlong]
      refine iff_of_true (all_pure _) fun plaintext hopens => ?_
      have hfits := hopens.short
      omega
    · rw [if_neg hlong]
      generalize hctLen : read16 (fileMem file) (start + off) - 30 = ctLen at hlong ⊢
      have hiv := hraw.windowBytes (show 2 + 12 ≤ read16 (fileMem file) (start + off) by omega)
      have hciphertext := hraw.window
        (show 14 + ctLen ≤ read16 (fileMem file) (start + off) by omega)
      have htag := hraw.windowBytes
        (show 14 + ctLen + 16 ≤ read16 (fileMem file) (start + off) by omega)
      rw [← Nat.add_assoc, ← Nat.add_assoc] at htag
      have hivReads : ((windowBytesAt rawBuf (off + 2) 12).mapLog
          (.bufRead off (read16 (fileMem file) (start + off)))).All (LoadAccess.Inside count) :=
        bufReads_inside count _ (by omega) (by omega)
      have hciphertextReads : ((windowAt rawBuf (off + 14) ctLen).mapLog
          (.bufRead off (read16 (fileMem file) (start + off)))).All (LoadAccess.Inside count) :=
        bufReads_inside count _ (by omega) (by omega)
      have htagReads : ((windowBytesAt rawBuf (off + 14 + ctLen) 16).mapLog
          (.bufRead off (read16 (fileMem file) (start + off)))).All (LoadAccess.Inside count) :=
        bufReads_inside count _ (by omega) (by omega)
      have hwrites := (bufWrites_inside count bufAlloc (off + 14) ctLen).mpr (by omega)
      rw [all_bind, and_iff_right hivReads, all_bind, and_iff_right hciphertextReads, all_bind,
        and_iff_right htagReads, all_bind, and_iff_right hwrites]
      simp only [val_mapLog, val_windowBytesAt, val_windowAt, hiv, hciphertext, htag]
      have hopens : ∀ plaintext, RecordOpens H key file (start + off) plaintext ↔
          H.gcmDecrypt key (windowBytes (fileMem file) (start + off + 2) 12)
            (window (fileMem file) (start + off + 14) ctLen)
            (windowBytes (fileMem file) (start + off + 14 + ctLen) 16) = some plaintext := by
        intro plaintext
        rw [← hctLen]
        exact ⟨fun h => h.opened, fun h => ⟨by omega, by omega, h⟩⟩
      simp only [hopens]
      cases hopen : H.gcmDecrypt key (windowBytes (fileMem file) (start + off + 2) 12)
        (window (fileMem file) (start + off + 14) ctLen)
        (windowBytes (fileMem file) (start + off + 14 + ctLen) 16) with
      | none => simp
      | some plaintext =>
        simp only [Option.some.injEq, forall_eq']
        have hlength := ((hopens plaintext).mpr hopen).length
        rw [hctLen] at hlength
        have hcleared := outWrites_inside hloaded (show 0 + historyMessageSize ≤ _ by decide)
        have htext : (note ((List.range' historyTextOffset ((historyParse header msgIdx
            (memOf plaintext fun i => rawBuf (off + 14 + i))).textLen.toNat + 1)).map
              (.outWrite loaded))).All (LoadAccess.Inside count) := by
          apply outWrites_inside hloaded
          have hlen := historyParse_textLen header msgIdx
            (memOf plaintext fun i => rawBuf (off + 14 + i))
          have hoffset : historyTextOffset = 18 := rfl
          have hsize : historyMessageSize = 4120 := rfl
          omega
        rw [all_bind, and_iff_right hcleared, all_bind, val_mapLog, historyParseLogged_val,
          all_bind, and_iff_right htext, and_iff_left (all_pure _),
          historyTextEnd_memOf_le_iff _ fun i => rawBuf (off + 14 + i), hlength,
          ← historyParseLogged_below header msgIdx, all_mapLog]
        exact Iff.rfl

end Record

/-- The decrypt loop stays inside exactly when each record does. -/
theorem historyOpenRecordsLogged_inside (H : HistoryOpening K) (key : K) (header : HistoryHeader)
    {rawBuf : Mem} {bufAlloc : ℕ} {count : ℤ} {fits : ℕ → Prop} {offsets : List ℕ}
    (hone : ∀ off ∈ offsets, ∀ (loaded : ℕ) (msgIdx : UInt16), (loaded : ℤ) < count →
      ((historyOpenRecordLogged H key header rawBuf bufAlloc loaded msgIdx off).All
        (LoadAccess.Inside count) ↔ fits off))
    (loaded index : ℕ) (hroom : ((loaded + offsets.length : ℕ) : ℤ) ≤ count) :
    (historyOpenRecordsLogged H key header rawBuf bufAlloc loaded index offsets).All
      (LoadAccess.Inside count) ↔ ∀ off ∈ offsets, fits off := by
  induction offsets generalizing loaded index with
  | nil => simp [historyOpenRecordsLogged]
  | cons off offsets ih =>
    rw [List.length_cons] at hroom
    have hrest := ih fun off' hoff' => hone off' (List.mem_cons_of_mem _ hoff')
    rw [historyOpenRecordsLogged, all_bind,
      hone off List.mem_cons_self loaded (UInt16.ofNat index) (by omega), List.forall_mem_cons]
    apply and_congr_right
    intro _
    cases (historyOpenRecordLogged H key header rawBuf bufAlloc loaded (UInt16.ofNat index)
        off).val with
    | none => exact hrest loaded (index + 1) (by omega)
    | some msg =>
      simp only [all_bind, all_pure, and_true]
      exact hrest (loaded + 1) (index + 1) (by omega)

/-- A returned message was opened at one of the offsets, under its index. -/
theorem mem_historyOpenRecords {H : HistoryOpening K} {key : K} {header : HistoryHeader}
    {rawBuf : Mem} {index : ℕ} {offsets : List ℕ} {msg : HistoryMessage}
    (h : msg ∈ historyOpenRecords H key header rawBuf index offsets) :
    ∃ k off, offsets[k]? = some off ∧
      historyOpenRecord H key header rawBuf (UInt16.ofNat (index + k)) off = some msg := by
  induction offsets generalizing index with
  | nil => cases h
  | cons off offsets ih =>
    rw [historyOpenRecords] at h
    have hlater : msg ∈ historyOpenRecords H key header rawBuf (index + 1) offsets →
        ∃ k off', (off :: offsets)[k]? = some off' ∧
          historyOpenRecord H key header rawBuf (UInt16.ofNat (index + k)) off' = some msg := by
      intro hmem
      obtain ⟨k, off', hoff', hopened⟩ := ih hmem
      exact ⟨k + 1, off', hoff', by rwa [show index + (k + 1) = index + 1 + k by omega]⟩
    cases hopen : historyOpenRecord H key header rawBuf (UInt16.ofNat index) off with
    | none =>
      rw [hopen] at h
      exact hlater h
    | some opened =>
      rw [hopen] at h
      rcases List.mem_cons.mp h with rfl | hmem
      · exact ⟨0, off, rfl, hopen⟩
      · exact hlater hmem

/-! ### The load -/

section Load

variable (H : HistoryOpening K) (key : K) (header : HistoryHeader) (file : List UInt8)

/-- The buffer after the read loop. -/
def loadedBuf (start used : ℕ) (heap : Mem) : Mem :=
  fun i => if i < used then file.getD (start + i) 0 else heap i

variable {file}

/-- A record that was read lies in the buffer whole. -/
theorem holdsRecord_loadedBuf {start bufAlloc records off : ℕ} (heap : Mem)
    (hmem : off ∈ (historyReadRecords file start bufAlloc records 0).1)
    (hlen : 2 ≤ read16 (fileMem file) (start + off)) :
    HoldsRecord file (loadedBuf file start (historyReadRecords file start bufAlloc records 0).2
      heap) start off ∧ start + (off + read16 (fileMem file) (start + off)) ≤ file.length := by
  obtain ⟨recLen, hrec, hfile, hused⟩ := mem_historyReadRecords hmem
  have hread := (historyRecordLen_eq_some hrec).1
  have hlt := read16_lt (fileMem file) (start + off)
  refine ⟨fun i hi => ?_, by omega⟩
  rw [loadedBuf, if_pos (by omega)]
  rfl

/-- A record in the buffer is opened when it authenticates in the file. -/
theorem historyOpenRecord_loadedBuf {start bufAlloc records off : ℕ} {heap : Mem}
    {msgIdx : UInt16} {msg : HistoryMessage}
    (hmem : off ∈ (historyReadRecords file start bufAlloc records 0).1) :
    historyOpenRecord H key header (loadedBuf file start
        (historyReadRecords file start bufAlloc records 0).2 heap) msgIdx off = some msg ↔
      ∃ plaintext, RecordOpens H key file (start + off) plaintext ∧
        msg = historyParse header msgIdx (memOf plaintext fun i => loadedBuf file start
          (historyReadRecords file start bufAlloc records 0).2 heap (off + 14 + i)) := by
  obtain ⟨recLen, hrec, hfile, hused⟩ := mem_historyReadRecords hmem
  obtain ⟨hread, -⟩ := historyRecordLen_eq_some hrec
  have hlt := read16_lt (fileMem file) (start + off)
  have hword : read16 (loadedBuf file start (historyReadRecords file start bufAlloc records 0).2
      heap) off = recLen := by
    rw [← hread, read16, read16, loadedBuf, loadedBuf, if_pos (by omega), if_pos (by omega)]
    rfl
  have hmax : 11 + historyMaxPayload = 16011 := rfl
  rw [historyOpenRecord, hword]
  by_cases hshort : recLen < 30
  · rw [if_pos (by omega)]
    refine iff_of_false (Option.some_ne_none msg).symm ?_
    rintro ⟨_, hopens, _⟩
    have := hopens.whole
    omega
  have hct : (4294967266 + recLen) % 4294967296 = recLen - 30 := by omega
  obtain ⟨hraw, -⟩ := holdsRecord_loadedBuf heap hmem (by omega)
  rw [hct]
  by_cases hlong : recLen - 30 > 11 + historyMaxPayload
  · rw [if_pos hlong]
    refine iff_of_false (Option.some_ne_none msg).symm ?_
    rintro ⟨_, hopens, _⟩
    have := hopens.short
    omega
  rw [if_neg hlong]
  have hiv := hraw.windowBytes (show 2 + 12 ≤ read16 (fileMem file) (start + off) by omega)
  have hciphertext := hraw.window
    (show 14 + (recLen - 30) ≤ read16 (fileMem file) (start + off) by omega)
  have htag := hraw.windowBytes
    (show 14 + (recLen - 30) + 16 ≤ read16 (fileMem file) (start + off) by omega)
  rw [← Nat.add_assoc, ← Nat.add_assoc] at htag
  rw [hiv, hciphertext, htag]
  constructor
  · intro hopen
    cases hplain : H.gcmDecrypt key (windowBytes (fileMem file) (start + off + 2) 12)
        (window (fileMem file) (start + off + 14) (recLen - 30))
        (windowBytes (fileMem file) (start + off + 14 + (recLen - 30)) 16) with
    | none =>
      rw [hplain] at hopen
      cases hopen
    | some plaintext =>
      rw [hplain, Option.some.injEq] at hopen
      exact ⟨plaintext, ⟨by omega, by omega, by rw [hread]; exact hplain⟩, hopen.symm⟩
  · rintro ⟨plaintext, hopens, rfl⟩
    have hplain := hopens.opened
    rw [hread] at hplain
    rw [hplain]

/-- What a record of a window that fits is opened to is its content. -/
theorem isRecordContent_of_opened {start bufAlloc records k off index : ℕ} {heap : Mem}
    {msg : HistoryMessage} (halloc : bufAlloc < 2147483648)
    (hskip : historySkip file index historyHeaderSize = some start)
    (hwindow : WindowFits file start bufAlloc (RecordFits H key header file) records 0)
    (hfits : RecordFits H key header file (start + off))
    (hget : (historyReadRecords file start bufAlloc records 0).1[k]? = some off)
    (hopen : historyOpenRecord H key header (loadedBuf file start
      (historyReadRecords file start bufAlloc records 0).2 heap) (UInt16.ofNat (index + k)) off =
        some msg) :
    IsRecordContent H key header file msg := by
  have hmem := List.mem_of_getElem? hget
  obtain ⟨plaintext, hopens, rfl⟩ := (historyOpenRecord_loadedBuf H key header hmem).mp hopen
  have hwhole := hopens.whole
  obtain ⟨-, hfile⟩ := holdsRecord_loadedBuf heap hmem (by omega)
  have hend := hfits plaintext hopens
  refine ⟨index + k, start + off, plaintext, ?_, by omega, hopens, hend, ?_⟩
  · rw [historySkip_add, hskip]
    exact hwindow.skip halloc (Nat.zero_le _) hget
  · exact (historyParse_congr _ (historyTextEnd_memOf _ hend)).symm

/-- The accesses of a load of one file stay inside exactly when the window fits. -/
theorem historyLoadFromLogged_inside (file : List UInt8) (startIdx count : ℤ) (toLoad : ℕ)
    (htoLoad : toLoad ≤ 20) (hcount : (toLoad : ℤ) ≤ count) (heap : Mem) :
    (historyLoadFromLogged H key header file startIdx toLoad heap).All
        (LoadAccess.Inside count) ↔
      ∀ start, historySkip file startIdx.toNat historyHeaderSize = some start →
        WindowFits file start (toLoad * 16041) (RecordFits H key header file) toLoad 0 := by
  have halloc : ((toLoad : ℤ) * 16041 % 4294967296).toNat = toLoad * 16041 := by omega
  have hread : min (toLoad : ℤ).toNat historyMaxLoad = toLoad := by
    rw [Int.toNat_natCast]
    exact Nat.min_eq_left htoLoad
  rw [historyLoadFromLogged, halloc, hread]
  cases hskip : historySkip file startIdx.toNat historyHeaderSize with
  | none => simp
  | some start =>
    simp only [Option.some.injEq, forall_eq']
    have hlength := historyReadRecords_length file start (toLoad * 16041) toLoad 0
    rw [all_bind, historyReadRecordsLogged_val, all_bind, and_iff_left (all_pure _)]
    have hlt : toLoad * 16041 < 2147483648 := by omega
    have hindex : 0 + toLoad ≤ historyMaxLoad := by
      rw [Nat.zero_add]
      exact htoLoad
    rw [← historyReadRecordsLogged_inside file start count hlt _ 0 toLoad 0 (Nat.zero_le _)
      hindex]
    apply and_congr_right
    intro hreads
    have hwindow := (historyReadRecordsLogged_inside file start count hlt (fun _ => True) 0
      toLoad 0 (Nat.zero_le _) hindex).mp ⟨hreads, fun _ _ => trivial⟩
    apply historyOpenRecordsLogged_inside H key header
    · intro off hoff loaded msgIdx hloaded
      obtain ⟨hmin, hbuf⟩ := hwindow.mem hlt (Nat.zero_le _) hoff
      exact historyOpenRecordLogged_inside H key header hloaded msgIdx
        (holdsRecord_loadedBuf heap hoff hmin).1 hmin hbuf
    · omega

/-- Then each message is the content of a record. -/
theorem historyLoadFrom_content (file : List UInt8) (startIdx : ℤ) (toLoad : ℕ)
    (htoLoad : toLoad ≤ 20) (heap : Mem)
    (hfits : ∀ start, historySkip file startIdx.toNat historyHeaderSize = some start →
      WindowFits file start (toLoad * 16041) (RecordFits H key header file) toLoad 0) :
    ∀ msg ∈ (historyLoadFrom H key header file startIdx toLoad heap).2,
      IsRecordContent H key header file msg := by
  have halloc : ((toLoad : ℤ) * 16041 % 4294967296).toNat = toLoad * 16041 := by omega
  have hread : min (toLoad : ℤ).toNat historyMaxLoad = toLoad := by
    rw [Int.toNat_natCast]
    exact Nat.min_eq_left htoLoad
  rw [historyLoadFrom, halloc, hread]
  cases hskip : historySkip file startIdx.toNat historyHeaderSize with
  | none => exact fun msg hmsg => absurd hmsg List.not_mem_nil
  | some start =>
    intro msg hmsg
    have hlt : toLoad * 16041 < 2147483648 := by omega
    have hindex : 0 + toLoad ≤ historyMaxLoad := by
      rw [Nat.zero_add]
      exact htoLoad
    have hwindow := hfits start hskip
    obtain ⟨k, off, hget, hopened⟩ := mem_historyOpenRecords hmsg
    have hrecord := ((historyReadRecordsLogged_inside file start 20 hlt _ 0 toLoad 0
      (Nat.zero_le _) hindex).mpr hwindow).2 off (List.mem_of_getElem? hget)
    exact isRecordContent_of_opened H key header hlt hskip hwindow hrecord hget hopened

end Load

/-- A load gets to the records, or it touches nothing and returns no message. -/
theorem smpHistoryLoadRecentLogged_cases (H : HistoryOpening K) (dev : HistoryDevice K)
    (slot : UInt8) (count : ℤ) (faults : LoadFaults) (heap : Mem) :
    (∃ content header, LoadReaches dev slot faults content header ∧
      smpHistoryLoadRecentLogged H dev slot count faults heap =
        historyLoadFromLogged H (historyDeriveKey H.toHistoryPrimitives dev.masterKey slot) header
          (content.take faults.readable) (historyStartIdx header.msgCount.toNat count)
          (min (header.msgCount.toNat - historyStartIdx header.msgCount.toNat count) count)
          heap) ∨
    ((∀ content header, ¬ LoadReaches dev slot faults content header) ∧
      ∃ err, smpHistoryLoadRecentLogged H dev slot count faults heap = pure (err, [])) := by
  rw [smpHistoryLoadRecentLogged]
  cases hinit : dev.initialized with
  | false => exact Or.inr ⟨fun _ _ h => by simp [h.initialized] at hinit, _, rfl⟩
  | true =>
    cases hsd : faults.sdAvailable with
    | false => exact Or.inr ⟨fun _ _ h => by simp [h.sdAvailable] at hsd, _, rfl⟩
    | true =>
      by_cases hslot : slot ≥ 128
      · refine Or.inr ⟨fun _ _ h => absurd h.slot_lt (UInt8.not_lt.mpr hslot), .invalidArg, ?_⟩
        simp [hslot]
      · simp only [if_neg hslot, Bool.not_true, Bool.false_eq_true, if_false]
        cases hkey : faults.deriveKey with
        | some err => exact Or.inr ⟨fun _ _ h => by simp [h.deriveKey] at hkey, _, rfl⟩
        | none =>
          cases hlock : faults.lock with
          | false => exact Or.inr ⟨fun _ _ h => by simp [h.lock] at hlock, _, rfl⟩
          | true =>
            simp only [Bool.not_true, Bool.false_eq_true, if_false]
            cases hopen : faults.openRead with
            | false => exact Or.inr ⟨fun _ _ h => by simp [h.openRead] at hopen, _, rfl⟩
            | true =>
              cases hfile : dev.sd (historyBuildPath slot) with
              | none => exact Or.inr ⟨fun _ _ h => by simp [h.file] at hfile, _, rfl⟩
              | some content =>
                simp only [if_true]
                cases hread : HistoryHeader.read (content.take faults.readable) with
                | none =>
                  refine Or.inr ⟨fun _ _ h => ?_, _, rfl⟩
                  obtain rfl := Option.some.inj (hfile.symm.trans h.file)
                  simp [h.readHeader] at hread
                | some header =>
                  by_cases hcount : (header.msgCount.toNat : ℤ) = 0
                  · refine Or.inr ⟨fun _ _ h => ?_, .ok, by simp only [if_pos hcount]⟩
                    obtain rfl := Option.some.inj (hfile.symm.trans h.file)
                    obtain rfl := Option.some.inj (hread.symm.trans h.readHeader)
                    exact h.counted (by exact_mod_cast hcount)
                  · simp only [if_neg hcount]
                    cases halloc : faults.alloc with
                    | false => exact Or.inr ⟨fun _ _ h => by simp [h.alloc] at halloc, _, rfl⟩
                    | true =>
                      refine Or.inl ⟨content, header, ?_, rfl⟩
                      exact ⟨hinit, hsd, UInt8.not_le.mp hslot, hkey, hlock, hopen, hfile, hread,
                        by exact_mod_cast hcount, halloc⟩

/-- A load of up to `HISTORY_MAX_LOAD` messages is safe exactly when the records it would read
fit. -/
theorem history_load_safe_iff (H : HistoryOpening K) (dev : HistoryDevice K) (slot : UInt8)
    (count : ℤ) (hcount : 1 ≤ count ∧ count ≤ historyMaxLoad) (faults : LoadFaults) (heap : Mem) :
    LoadSafe H dev slot count faults heap ↔ LoadFits H dev slot count faults := by
  have hmax : count ≤ 20 := hcount.2
  have hval := smpHistoryLoadRecentLogged_val H dev slot count faults heap
  rcases smpHistoryLoadRecentLogged_cases H dev slot count faults heap with
    ⟨content, header, hreaches, hload⟩ | ⟨hnot, err, hload⟩
  · -- the number of records is at most `count`
    obtain ⟨toLoad, htoLoad⟩ : ∃ toLoad : ℕ, (toLoad : ℤ) =
        min (header.msgCount.toNat - historyStartIdx header.msgCount.toNat count) count := by
      refine ⟨(min (header.msgCount.toNat - historyStartIdx header.msgCount.toNat count)
        count).toNat, Int.toNat_of_nonneg ?_⟩
      rw [historyStartIdx]
      split_ifs <;> omega
    have hinside := historyLoadFromLogged_inside H
      (historyDeriveKey H.toHistoryPrimitives dev.masterKey slot) header
      (content.take faults.readable) (historyStartIdx header.msgCount.toNat count) count toLoad
      (by omega) (by omega) heap
    have hcontent := historyLoadFrom_content H
      (historyDeriveKey H.toHistoryPrimitives dev.masterKey slot) header
      (content.take faults.readable) (historyStartIdx header.msgCount.toNat count) toLoad
      (by omega) heap
    rw [htoLoad] at hinside hcontent
    rw [← hload] at hinside
    rw [← historyLoadFromLogged_val, ← hload, hval] at hcontent
    constructor
    · intro hsafe content' header' start hreaches'
      obtain rfl := Option.some.inj (hreaches.file.symm.trans hreaches'.file)
      obtain rfl := Option.some.inj (hreaches.readHeader.symm.trans hreaches'.readHeader)
      dsimp only
      rw [← htoLoad, Int.toNat_natCast]
      exact hinside.mp hsafe.inside start
    · intro hfits
      have hwindow : ∀ start, historySkip (content.take faults.readable)
          (historyStartIdx header.msgCount.toNat count).toNat historyHeaderSize = some start →
            WindowFits (content.take faults.readable) start (toLoad * 16041) (RecordFits H
              (historyDeriveKey H.toHistoryPrimitives dev.masterKey slot) header
              (content.take faults.readable)) toLoad 0 := by
        intro start hskip
        have hwindow := hfits content header start hreaches
        dsimp only at hwindow
        rw [← htoLoad, Int.toNat_natCast] at hwindow
        exact hwindow hskip
      exact ⟨hinside.mpr hwindow, fun msg hmsg =>
        ⟨content, header, hreaches.file, hreaches.readHeader, hcontent hwindow msg hmsg⟩⟩
  · refine iff_of_true ⟨?_, ?_⟩ fun content header start h => absurd h (hnot content header)
    · rw [hload]
      exact all_pure _
    · rw [← hval, hload]
      exact fun msg hmsg => absurd hmsg List.not_mem_nil

/-- A header that counts one message. -/
def oneCountedHeader : HistoryHeader := { HistoryHeader.fresh 0 with msgCount := 1 }

/-- A device with one history file. -/
def loadSampleDevice (rest : List UInt8) : HistoryDevice (List UInt8 × List UInt8) :=
  { HistoryDevice.blank with
    initialized := true
    sd := fun _ => some (oneCountedHeader.encode ++ rest) }

/-- A load in which nothing fails. -/
def loadSampleFaults (rest : List UInt8) : LoadFaults where
  sdAvailable := true
  deriveKey := none
  lock := true
  openRead := true
  readable := (oneCountedHeader.encode ++ rest).length
  alloc := true

/-- It gets to that file and its header. -/
theorem loadSample_reaches (rest : List UInt8) {content : List UInt8} {header : HistoryHeader} :
    LoadReaches (loadSampleDevice rest) 0 (loadSampleFaults rest) content header ↔
      content = oneCountedHeader.encode ++ rest ∧ header = oneCountedHeader := by
  have hread : HistoryHeader.read ((oneCountedHeader.encode ++ rest).take
      (loadSampleFaults rest).readable) = some oneCountedHeader := by
    rw [loadSampleFaults, List.take_length, HistoryHeader.read_encode_append]
  constructor
  · intro h
    obtain rfl : _ = content := Option.some.inj h.file
    exact ⟨rfl, Option.some.inj (h.readHeader.symm.trans hread)⟩
  · rintro ⟨rfl, rfl⟩
    exact ⟨rfl, rfl, by decide, rfl, rfl, rfl, rfl, hread, by decide, rfl⟩

/-- The window of its one record. -/
theorem loadSample_window (rest : List UInt8) (H : HistoryOpening (List UInt8 × List UInt8)) :
    LoadFits H (loadSampleDevice rest) 0 1 (loadSampleFaults rest) ↔
      WindowFits (oneCountedHeader.encode ++ rest) 32 16041
        (RecordFits H (historyDeriveKey H.toHistoryPrimitives (loadSampleDevice rest).masterKey 0)
          oneCountedHeader (oneCountedHeader.encode ++ rest)) 1 0 := by
  have htake : (oneCountedHeader.encode ++ rest).take (loadSampleFaults rest).readable =
      oneCountedHeader.encode ++ rest := List.take_length
  constructor
  · intro h
    have hwindow := h _ _ 32 ((loadSample_reaches rest).mpr ⟨rfl, rfl⟩)
    rw [htake] at hwindow
    exact hwindow rfl
  · rintro h content header start hreaches
    obtain ⟨rfl, rfl⟩ := (loadSample_reaches rest).mp hreaches
    rw [htake]
    dsimp only
    intro hskip
    obtain rfl : historyHeaderSize = start := Option.some.inj hskip
    exact h

/-- A load of it that stays inside has a window that fits. -/
theorem loadSample_fits_of_inside (rest : List UInt8)
    (h : (smpHistoryLoadRecentLogged symbolicOpening (loadSampleDevice rest) 0 1
      (loadSampleFaults rest) fun _ => 0).All (LoadAccess.Inside 1)) :
    LoadFits symbolicOpening (loadSampleDevice rest) 0 1 (loadSampleFaults rest) := by
  rcases smpHistoryLoadRecentLogged_cases symbolicOpening (loadSampleDevice rest) 0 1
    (loadSampleFaults rest) (fun _ => 0) with ⟨content, header, hreaches, hload⟩ | ⟨hnot, -⟩
  · obtain ⟨rfl, rfl⟩ := (loadSample_reaches rest).mp hreaches
    have htake : (oneCountedHeader.encode ++ rest).take (loadSampleFaults rest).readable =
        oneCountedHeader.encode ++ rest := List.take_length
    rw [hload, htake] at h
    exact (loadSample_window rest symbolicOpening).mpr
      ((historyLoadFromLogged_inside symbolicOpening _ _ _ _ 1 1 (by decide) (Int.le_refl 1)
        fun _ => 0).mp h 32 rfl)
  · exact absurd ((loadSample_reaches rest).mpr ⟨rfl, rfl⟩) (hnot _ _)

/-- A record of version 2 with a text of one byte, behind a text length of its own. -/
def sampleRecord (textLen : UInt8) : List UInt8 :=
  be16 43 ++ List.replicate 12 0 ++ (List.replicate 11 0 ++ [textLen, 65]) ++ List.replicate 16 0

/-- Its window fits exactly when the text ends in the plaintext. -/
theorem sampleRecord_fits {textLen : UInt8}
    (hlen : historyRecordLen (oneCountedHeader.encode ++ sampleRecord textLen) (32 + 0) = some 43)
    (hplain : symbolicOpening.gcmDecrypt ([], [])
      (windowBytes (fileMem (oneCountedHeader.encode ++ sampleRecord textLen)) (32 + 0 + 2) 12)
      (window (fileMem (oneCountedHeader.encode ++ sampleRecord textLen)) (32 + 0 + 14) (43 - 30))
      (windowBytes (fileMem (oneCountedHeader.encode ++ sampleRecord textLen))
        (32 + 0 + 14 + (43 - 30)) 16) = some (List.replicate 11 0 ++ [textLen, 65])) :
    LoadFits symbolicOpening (loadSampleDevice (sampleRecord textLen)) 0 1
        (loadSampleFaults (sampleRecord textLen)) ↔
      historyTextEnd oneCountedHeader (memOf (List.replicate 11 0 ++ [textLen, 65]) fun _ => 0) ≤
        13 := by
  have hread := (historyRecordLen_eq_some hlen).1
  have hsize : (oneCountedHeader.encode ++ sampleRecord textLen).length = 75 := rfl
  rw [loadSample_window, WindowFits, hlen]
  dsimp only
  rw [if_neg (by decide), if_neg (by decide), hsize, if_neg (by decide), WindowFits, and_true,
    RecordFits]
  constructor
  · intro hfits
    exact hfits _ ⟨by rw [hread]; decide, by rw [hread]; decide, by rw [hread]; exact hplain⟩
  · intro hend plaintext hopens
    have hopened := hopens.opened
    rw [hread] at hopened
    obtain rfl := Option.some.inj (hplain.symm.trans hopened)
    exact hend

/-- A message of one byte is loaded. -/
theorem history_load_safe_one_byte :
    LoadSafe symbolicOpening (loadSampleDevice (sampleRecord 1)) 0 1
      (loadSampleFaults (sampleRecord 1)) fun _ => 0 := by
  apply (history_load_safe_iff symbolicOpening (loadSampleDevice (sampleRecord 1)) 0 1
    ⟨by decide, by decide⟩ (loadSampleFaults (sampleRecord 1)) fun _ => 0).mpr
  exact (sampleRecord_fits (by decide) (by decide)).mpr (by decide)

/-- A length field of 0 before as many bytes as a record may have. -/
def zeroLengthRecord : List UInt8 := be16 0 ++ List.replicate 16040 0

/-- The load writes past its buffer. -/
theorem zeroLengthRecord_unfit :
    ¬ LoadFits symbolicOpening (loadSampleDevice zeroLengthRecord) 0 1
      (loadSampleFaults zeroLengthRecord) := by
  have hlen : historyRecordLen (oneCountedHeader.encode ++ zeroLengthRecord) (32 + 0) = some 0 :=
    historyRecordLen_be16 oneCountedHeader.encode (List.replicate 16040 0) (by decide)
  have hlength : (oneCountedHeader.encode ++ zeroLengthRecord).length = 16074 := by
    rw [List.length_append, HistoryHeader.encode_length, zeroLengthRecord, List.length_append,
      be16_length, List.length_replicate]
  rw [loadSample_window, WindowFits, hlen]
  dsimp only
  rw [if_neg (by decide), if_pos (by decide), hlength]
  omega

/-- Two loads that are not safe. One writes past its buffer. The other takes the second byte of a
text from the tag. -/
theorem history_load_leaves_buffer :
    ¬ LoadSafe symbolicOpening (loadSampleDevice zeroLengthRecord) 0 1
      (loadSampleFaults zeroLengthRecord) (fun _ => 0) ∧
    ¬ LoadSafe symbolicOpening (loadSampleDevice (sampleRecord 2)) 0 1
      (loadSampleFaults (sampleRecord 2)) fun _ => 0 := by
  constructor
  · exact fun hsafe => zeroLengthRecord_unfit (loadSample_fits_of_inside _ hsafe.inside)
  · intro hsafe
    have hfits := loadSample_fits_of_inside _ hsafe.inside
    rw [sampleRecord_fits (by decide) (by decide)] at hfits
    revert hfits
    decide

end SimpleGo
