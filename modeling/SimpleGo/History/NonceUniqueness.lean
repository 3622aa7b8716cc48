import SimpleGo.History.Device
import SimpleGo.Lib.Runs

/-!
# Nonces of the chat history

A nonce is a slot and the message counter of that slot's file, so it is fresh as long as the
counter counts the records ever encrypted for the slot. It stops doing so when a file is
made anew after a deletion, when an append is interrupted between its encryption and the
rewritten counter, and when it wraps. `HistoryRun` keeps for each slot how many appends
have advanced the counter and what the last encryption left behind; `AppendSafe` excludes
the three cases, and in a run of safe steps no pair of key and nonce sees two plaintexts.
-/

namespace SimpleGo

open Lib

variable {K : Type}

/-- No two different plaintexts under one key and nonce. -/
def NoncesUnique (dev : HistoryDevice K) : Prop :=
  ∀ e ∈ dev.sealed, ∀ e' ∈ dev.sealed, e.key = e'.key → e.iv = e'.iv → e.plaintext = e'.plaintext

/-- What the last encryption of a slot left on the card. -/
inductive HistoryTail where
  /-- Its record is counted. -/
  | counted
  /-- The counter is still the one it was encrypted under. -/
  | uncounted (plaintext : List UInt8)
  /-- The counter's bytes may be cut. -/
  | torn

/-- A device with the appends counted so far and the tail of each slot. -/
structure HistoryRun (K : Type) where
  device : HistoryDevice K
  counted : UInt8 → ℕ
  tail : UInt8 → HistoryTail

/-- The header an append encrypts under, with whether the file is new, if it gets that far. -/
def appendSeals (dev : HistoryDevice K) (slot : UInt8) (faults : AppendFaults) :
    Option (HistoryHeader × Bool) :=
  if dev.initialized ∧ faults.sdAvailable ∧ slot < 128 ∧ faults.cpu = none then
    (historyReadHeader dev.sd slot faults).toOption
  else none

/-- The record goes behind the counter of the file. -/
def AppendFaults.behindCounter (faults : AppendFaults) (newFile : Bool) : Bool :=
  if newFile then decide (8 ≤ faults.headerLanded) else faults.seekEnd

/-- The file is opened for writing and the new counter comes to stand at its start: both bytes
land, or the low one does and the high one stays as it is. -/
def AppendFaults.completes (faults : AppendFaults) (header : HistoryHeader) (newFile : Bool) :
    Bool :=
  faults.lock₂ && faults.openWrite && faults.seekStart &&
    (decide (8 ≤ faults.counterLanded) ||
      faults.behindCounter newFile && faults.counterLanded == 7 &&
        decide (header.msgCount.toNat % 256 < 255))

/-- The file is not opened for writing, or no write touches its counter: the record goes to
the end, behind the counter, and the rewritten header stops short of it or goes to the end
too. -/
def AppendFaults.sparesCounter (faults : AppendFaults) (newFile : Bool) : Bool :=
  !(faults.lock₂ && faults.openWrite) ||
    faults.behindCounter newFile && (!faults.seekStart || decide (faults.counterLanded ≤ 6))

/-- The tail an encrypting append leaves. -/
def AppendFaults.tail (faults : AppendFaults) (header : HistoryHeader) (newFile : Bool)
    (plaintext : List UInt8) : HistoryTail :=
  if faults.completes header newFile then .counted
  else if faults.sparesCounter newFile then .uncounted plaintext
  else .torn

/-- The run after a step. -/
def HistoryRun.step (H : HistoryPrimitives K) (run : HistoryRun K) (action : HistoryAction) :
    HistoryRun K :=
  let device := run.device.step H action
  match action with
  | .append slot msg faults =>
    match appendSeals run.device slot faults with
    | none => { run with device := device }
    | some (header, newFile) =>
      { device := device
        counted := Function.update run.counted slot
          (run.counted slot + (faults.completes header newFile).toNat)
        tail := Function.update run.tail slot
          (faults.tail header newFile (historyPlaintext header.version msg)) }
  | _ => { run with device := device }

/-- An append that encrypts is among the first 65536 counted ones of its slot; it creates the
file only in a slot without counted records; and the encryption before it was counted, or
was of the same plaintext and left the counter alone. -/
def AppendSafe (run : HistoryRun K) (slot : UInt8) (msg : HistoryMessage)
    (faults : AppendFaults) : Prop :=
  ∀ header newFile, appendSeals run.device slot faults = some (header, newFile) →
    run.counted slot < 65536 ∧ (newFile = true → run.counted slot = 0) ∧
      (run.tail slot = .counted ∨
        run.tail slot = .uncounted (historyPlaintext header.version msg))

/-- Only appends are restricted. -/
def HistorySafe (run : HistoryRun K) : HistoryAction → Prop
  | .append slot msg faults => AppendSafe run slot msg faults
  | _ => True

/-! ### The counter bytes under writes -/

/-- The bytes at offsets 6 and 7 are those of a header, and lie before the position. -/
structure CounterHeld (f : OpenFile) (header : HistoryHeader) : Prop where
  low : f.content[6]? = header.encode[6]?
  high : f.content[7]? = header.encode[7]?
  pos : 7 < f.pos
  pos_le : f.pos ≤ f.content.length

namespace CounterHeld

variable {f : OpenFile} {header : HistoryHeader}

/-- Writing behind the counter keeps it. -/
theorem fwrite (h : CounterHeld f header) (data : List UInt8) (landed : ℕ) :
    CounterHeld (f.fwrite data landed) header where
  low := by
    rw [OpenFile.fwrite, writeAt_getElem?_of_lt (by have := h.pos; omega)
      (by have := h.pos; have := h.pos_le; omega)]
    exact h.low
  high := by
    rw [OpenFile.fwrite, writeAt_getElem?_of_lt h.pos (Nat.lt_of_lt_of_le h.pos h.pos_le)]
    exact h.high
  pos := Nat.lt_of_lt_of_le h.pos (Nat.le_add_right _ _)
  pos_le := f.fwrite_pos_le data landed

/-- Seeking to the end keeps it. -/
theorem seekEnd (h : CounterHeld f header) (ok : Bool) : CounterHeld (f.seekEnd ok) header := by
  cases ok with
  | false => exact h
  | true => exact ⟨h.low, h.high, Nat.lt_of_lt_of_le h.pos h.pos_le, Nat.le_refl _⟩

/-- Writing a record keeps it. -/
theorem writeRecord (h : CounterHeld f header) (iv : Bytes 12) (sealedText : List UInt8 × Bytes 16)
    (faults : AppendFaults) : CounterHeld (historyWriteRecord f iv sealedText faults) header :=
  (((h.fwrite _ _).fwrite _ _).fwrite _ _).fwrite _ _

/-- The counter read from the contents is the header's. -/
theorem msgCount (h : CounterHeld f header) :
    (HistoryHeader.decode f.content).msgCount = header.msgCount :=
  HistoryHeader.decode_msgCount_eq h.low h.high

end CounterHeld

/-- Rewriting less than the counter, or behind it, leaves the counter. -/
theorem rewriteHeader_spared {f : OpenFile} {header header' : HistoryHeader} {seekStart : Bool}
    {landed : ℕ} (h : CounterHeld f header) (hspare : seekStart = false ∨ landed ≤ 6) :
    (HistoryHeader.decode (historyRewriteHeader f header' seekStart landed).content).msgCount =
      header.msgCount := by
  cases seekStart with
  | false => exact (h.fwrite _ _).msgCount
  | true =>
    have hlanded : landed ≤ 6 := hspare.resolve_left Bool.noConfusion
    have hdata : (header'.encode.take landed).length ≤ 6 := by
      rw [List.length_take]
      omega
    have hpos : (f.seekSet 0 true).pos = 0 := rfl
    apply HistoryHeader.decode_msgCount_eq
    · rw [← h.low]
      exact writeAt_getElem?_of_ge (Nat.zero_le _) (by omega)
    · rw [← h.high]
      exact writeAt_getElem?_of_ge (Nat.zero_le _) (by omega)

/-- Of a header written at the start of a file, the part that lands is there. -/
theorem fwrite_header_byte {f : OpenFile} (hpos : f.pos = 0) (header : HistoryHeader)
    {landed i : ℕ} (hlanded : i < landed) (hi : i < 32) :
    (f.fwrite header.encode landed).content[i]? = header.encode[i]? := by
  have hdata : i < (header.encode.take landed).length := by
    rw [List.length_take, HistoryHeader.encode_length]
    omega
  have hw : (writeAt f.content f.pos (header.encode.take landed))[f.pos + i]? =
      (header.encode.take landed)[i]? := writeAt_getElem?_data (by omega)
  rw [hpos, Nat.zero_add, List.getElem?_take_of_lt (by omega)] at hw
  rw [OpenFile.fwrite, hpos]
  exact hw

/-- Rewriting the counter sets it. -/
theorem rewriteHeader_counts (f : OpenFile) (header : HistoryHeader) {landed : ℕ}
    (hlanded : 8 ≤ landed) :
    (HistoryHeader.decode (historyRewriteHeader f header true landed).content).msgCount =
      header.msgCount := by
  have hpos : (f.seekSet 0 true).pos = 0 := rfl
  apply HistoryHeader.decode_msgCount_eq
  · exact fwrite_header_byte hpos header (by omega) (by omega)
  · exact fwrite_header_byte hpos header (by omega) (by omega)

/-- Rewriting the low byte alone sets a counter that does not carry. -/
theorem rewriteHeader_low {f : OpenFile} {header : HistoryHeader} {direction : UInt8}
    (h : CounterHeld f header) (hcarry : header.msgCount.toNat % 256 < 255) :
    (HistoryHeader.decode
      (historyRewriteHeader f (header.counted direction) true 7).content).msgCount =
        header.msgCount + 1 := by
  have hpos : (f.seekSet 0 true).pos = 0 := rfl
  have hdata : ((header.counted direction).encode.take 7).length = 7 := by
    rw [List.length_take, HistoryHeader.encode_length]
    rfl
  apply HistoryHeader.decode_msgCount_eq (h := header.counted direction)
  · exact fwrite_header_byte hpos _ (by omega) (by omega)
  · have hkept : (historyRewriteHeader f (header.counted direction) true 7).content[7]? =
        f.content[7]? := writeAt_getElem?_of_ge (Nat.zero_le _) (by rw [hpos]; omega)
    have hsum : (header.msgCount + 1).toNat = header.msgCount.toNat + 1 := by
      have hlt := header.msgCount.toNat_lt
      rw [UInt16.toNat_add, UInt16.toNat_one, Nat.mod_eq_of_lt (by omega)]
    rw [hkept, h.high, header.encode_msgCount.2, (header.counted direction).encode_msgCount.2,
      HistoryHeader.counted, hsum]
    congr 2
    omega

/-- The record of an existing file goes behind its counter, that of a new one behind the
counter its header brought. -/
theorem openEnd_held {content : List UInt8} {header : HistoryHeader} {newFile : Bool}
    {faults : AppendFaults}
    (hold : newFile = false → historyHeaderSize ≤ content.length ∧
      HistoryHeader.decode content = header)
    (hplace : faults.behindCounter newFile = true) :
    CounterHeld (historyOpenEnd content header newFile faults) header := by
  cases newFile with
  | false =>
    obtain ⟨hlen, rfl⟩ := hold rfl
    have hseek : faults.seekEnd = true := by simpa [AppendFaults.behindCounter] using hplace
    have hlen' : 32 ≤ content.length := hlen
    obtain ⟨hlow, hhigh⟩ := HistoryHeader.getElem?_counter hlen
    have hopen : historyOpenEnd content (HistoryHeader.decode content) false faults =
        ⟨content, content.length⟩ := by
      simp [historyOpenEnd, OpenFile.seekEnd, hseek]
    rw [hopen]
    exact ⟨hlow, hhigh, by change 7 < content.length; omega, Nat.le_refl _⟩
  | true =>
    have hlanded : 8 ≤ faults.headerLanded := by simpa [AppendFaults.behindCounter] using hplace
    have hdata : 8 ≤ (header.encode.take faults.headerLanded).length := by
      rw [List.length_take, HistoryHeader.encode_length]
      omega
    have hheld : CounterHeld ((⟨content, 0⟩ : OpenFile).fwrite header.encode
        faults.headerLanded) header :=
      { low := fwrite_header_byte rfl header (by omega) (by omega)
        high := fwrite_header_byte rfl header (by omega) (by omega)
        pos := by
          change 7 < 0 + (header.encode.take faults.headerLanded).length
          omega
        pos_le := OpenFile.fwrite_pos_le _ _ _ }
    exact hheld.seekEnd _

/-! ### What an append does -/

/-- The header of pass 1 is a fresh one or that of the file. -/
theorem historyReadHeader_cases {sd : Store String (List UInt8)} {slot : UInt8}
    {faults : AppendFaults} {header : HistoryHeader} {newFile : Bool}
    (h : historyReadHeader sd slot faults = .ok (header, newFile)) :
    (newFile = true ∧ header = .fresh slot) ∨
      (newFile = false ∧ ∃ file, sd (historyBuildPath slot) = some file ∧
        historyHeaderSize ≤ file.length ∧ HistoryHeader.decode file = header) := by
  rw [historyReadHeader] at h
  by_cases hlock : faults.lock₁ = true
  · rw [if_pos hlock] at h
    cases hopen : (if faults.openRead then sd (historyBuildPath slot) else none) with
    | none =>
      simp only [hopen, Except.ok.injEq, Prod.mk.injEq] at h
      exact Or.inl ⟨h.2.symm, h.1.symm⟩
    | some file =>
      have hfile : sd (historyBuildPath slot) = some file := by
        by_cases ho : faults.openRead = true
        · rwa [if_pos ho] at hopen
        · rw [if_neg ho] at hopen
          cases hopen
      cases hread : (if faults.readHeader then HistoryHeader.read file else none) with
      | none =>
        simp only [hopen, hread] at h
        cases h
      | some found =>
        have hfound : HistoryHeader.read file = some found := by
          by_cases hr : faults.readHeader = true
          · rwa [if_pos hr] at hread
          · rw [if_neg hr] at hread
            cases hread
        obtain ⟨hlen, hdecode⟩ := HistoryHeader.read_eq_some.mp hfound
        simp only [hopen, hread] at h
        by_cases hmagic : found.magic = historyMagic
        · simp only [hmagic, if_true, Except.ok.injEq, Prod.mk.injEq] at h
          exact Or.inr ⟨h.2.symm, file, hfile, hlen, hdecode.trans h.1⟩
        · simp only [hmagic, if_false] at h
          cases h
  · rw [if_neg hlock] at h
    cases h

/-- An append that does not encrypt changes nothing. -/
theorem smpHistoryAppend_of_none (H : HistoryPrimitives K) {dev : HistoryDevice K} {slot : UInt8}
    (msg : HistoryMessage) {faults : AppendFaults} (h : appendSeals dev slot faults = none) :
    (smpHistoryAppend H dev slot msg faults).1 = dev := by
  rw [smpHistoryAppend]
  by_cases hinit : dev.initialized = true
  · by_cases hsd : faults.sdAvailable = true
    · by_cases hslot : slot < 128
      · cases hread : historyReadHeader dev.sd slot faults with
        | error err => simp [hinit, hsd, UInt8.not_le.mpr hslot]
        | ok found =>
          cases hcpu : faults.cpu with
          | some err => simp [hinit, hsd, UInt8.not_le.mpr hslot]
          | none => simp [appendSeals, hinit, hsd, hslot, hcpu, hread, Except.toOption] at h
      · simp [hinit, hsd, UInt8.not_lt.mp hslot]
    · simp [hinit, hsd]
  · simp [hinit]

/-- An append that encrypts records the encryption and runs pass 2. -/
theorem smpHistoryAppend_of_some (H : HistoryPrimitives K) {dev : HistoryDevice K} {slot : UInt8}
    (msg : HistoryMessage) {faults : AppendFaults} {header : HistoryHeader} {newFile : Bool}
    (h : appendSeals dev slot faults = some (header, newFile)) :
    historyReadHeader dev.sd slot faults = .ok (header, newFile) ∧
      (smpHistoryAppend H dev slot msg faults).1 =
        { dev with
          sd := (historyWritePass dev.sd slot header newFile (historyBuildNonce slot header.msgCount)
            (H.gcmEncrypt (historyDeriveKey H dev.masterKey slot)
              (historyBuildNonce slot header.msgCount) (historyPlaintext header.version msg))
            msg.direction faults).1
          sealed := ⟨historyDeriveKey H dev.masterKey slot,
            historyBuildNonce slot header.msgCount, historyPlaintext header.version msg⟩ ::
              dev.sealed } := by
  rw [appendSeals] at h
  by_cases hreach : dev.initialized ∧ faults.sdAvailable ∧ slot < 128 ∧ faults.cpu = none
  · rw [if_pos hreach] at h
    obtain ⟨hinit, hsd, hslot, hcpu⟩ := hreach
    cases hread : historyReadHeader dev.sd slot faults with
    | error err =>
      rw [hread] at h
      cases h
    | ok found =>
      rw [hread] at h
      obtain rfl : found = (header, newFile) := Option.some.inj h
      refine ⟨rfl, ?_⟩
      simp [smpHistoryAppend, hinit, hsd, UInt8.not_le.mpr hslot, hread, hcpu]
  · rw [if_neg hreach] at h
    cases h

/-- Pass 2 writes the file of its slot, or nothing when it does not open it. -/
theorem historyWritePass_cases (sd : Store String (List UInt8)) (slot : UInt8)
    (header : HistoryHeader) {newFile : Bool} (iv : Bytes 12)
    (sealedText : List UInt8 × Bytes 16) (direction : UInt8) (faults : AppendFaults)
    (hfile : newFile = false → ∃ file, sd (historyBuildPath slot) = some file) :
    ((faults.lock₂ && faults.openWrite) = false ∧
        (historyWritePass sd slot header newFile iv sealedText direction faults).1 = sd) ∨
      ∃ content, (faults.lock₂ = true ∧ faults.openWrite = true) ∧
        (newFile = false → sd (historyBuildPath slot) = some content) ∧
        (historyWritePass sd slot header newFile iv sealedText direction faults).1 =
          sd.put (historyBuildPath slot)
            (historyAppended content header newFile iv sealedText direction faults) := by
  rw [historyWritePass]
  by_cases hlock : faults.lock₂ = true
  · by_cases hopen : faults.openWrite = true
    · right
      cases newFile with
      | true => exact ⟨[], ⟨hlock, hopen⟩, Bool.noConfusion, by simp [hlock, hopen]⟩
      | false =>
        obtain ⟨file, hf⟩ := hfile rfl
        exact ⟨file, ⟨hlock, hopen⟩, fun _ => hf, by simp [hlock, hopen, hf]⟩
    · left
      simp [hlock, hopen]
  · left
    simp [hlock]

/-- Pass 2 leaves the other files alone. -/
theorem historyWritePass_of_ne (sd : Store String (List UInt8)) {slot : UInt8}
    (header : HistoryHeader) (newFile : Bool) (iv : Bytes 12)
    (sealedText : List UInt8 × Bytes 16) (direction : UInt8) (faults : AppendFaults)
    {path : String} (hpath : path ≠ historyBuildPath slot) :
    (historyWritePass sd slot header newFile iv sealedText direction faults).1 path = sd path := by
  rw [historyWritePass]
  by_cases hlock : faults.lock₂ = true
  · rw [if_pos hlock]
    cases (if faults.openWrite then (if newFile then some [] else sd (historyBuildPath slot))
      else none) with
    | none => rfl
    | some content => exact Store.put_of_ne _ _ hpath
  · rw [if_neg hlock]

/-- The counter is one more when the rewritten header lands. -/
theorem historyAppended_msgCount_of_completes {content : List UInt8} {header : HistoryHeader}
    {newFile : Bool} (iv : Bytes 12) (sealedText : List UInt8 × Bytes 16) (direction : UInt8)
    {faults : AppendFaults}
    (hold : newFile = false → historyHeaderSize ≤ content.length ∧
      HistoryHeader.decode content = header)
    (hcomplete : faults.completes header newFile = true) :
    (HistoryHeader.decode (historyAppended content header newFile iv sealedText direction
      faults)).msgCount = header.msgCount + 1 := by
  simp only [AppendFaults.completes, Bool.and_eq_true, Bool.or_eq_true, beq_iff_eq,
    decide_eq_true_eq] at hcomplete
  obtain ⟨⟨-, hseek⟩, hboth | ⟨⟨hplace, hseven⟩, hcarry⟩⟩ := hcomplete
  · rw [historyAppended, hseek]
    exact rewriteHeader_counts _ _ hboth
  · rw [historyAppended, hseek, hseven]
    exact rewriteHeader_low ((openEnd_held hold hplace).writeRecord iv sealedText faults) hcarry

/-- The counter is the old one when every write spares it. -/
theorem historyAppended_msgCount_of_spares {content : List UInt8} {header : HistoryHeader}
    {newFile : Bool} (iv : Bytes 12) (sealedText : List UInt8 × Bytes 16) (direction : UInt8)
    {faults : AppendFaults}
    (hold : newFile = false → historyHeaderSize ≤ content.length ∧
      HistoryHeader.decode content = header)
    (hopened : faults.lock₂ = true ∧ faults.openWrite = true)
    (hspare : faults.sparesCounter newFile = true) :
    (HistoryHeader.decode (historyAppended content header newFile iv sealedText direction
      faults)).msgCount = header.msgCount := by
  simp only [AppendFaults.sparesCounter, hopened.1, hopened.2, Bool.and_self, Bool.not_true,
    Bool.false_or, Bool.and_eq_true, Bool.or_eq_true, Bool.not_eq_true', decide_eq_true_eq]
    at hspare
  have hheld := (openEnd_held hold hspare.1).writeRecord iv sealedText faults
  exact rewriteHeader_spared hheld hspare.2

/-! ### The invariant -/

/-- An index of a slot is one of those its tail accounts for. -/
def Accounted (run : HistoryRun K) (slot : UInt8) (index : UInt16) (plaintext : List UInt8) :
    Prop :=
  match run.tail slot with
  | .counted => index.toNat < run.counted slot
  | .uncounted last =>
    index.toNat < run.counted slot ∨ index.toNat = run.counted slot ∧ plaintext = last
  | .torn => True

/-- The files count the records encrypted for their slots. -/
structure HistoryInv (run : HistoryRun K) : Prop where
  unique : NoncesUnique run.device
  accounted : ∀ e ∈ run.device.sealed, ∃ slot index,
    e.iv = historyBuildNonce slot index ∧ Accounted run slot index e.plaintext
  counter : ∀ slot file, run.device.sd (historyBuildPath slot) = some file →
    historyHeaderSize ≤ file.length → run.tail slot ≠ .torn →
      (HistoryHeader.decode file).msgCount.toNat = run.counted slot % 65536

/-- An encryption that is allowed takes the index after all counted ones. -/
theorem HistoryInv.index_eq {run : HistoryRun K} (h : HistoryInv run) {slot : UInt8}
    {msg : HistoryMessage} {faults : AppendFaults} {header : HistoryHeader} {newFile : Bool}
    (hread : historyReadHeader run.device.sd slot faults = .ok (header, newFile))
    (hcounted : run.counted slot < 65536) (hnew : newFile = true → run.counted slot = 0)
    (htail : run.tail slot = .counted ∨
      run.tail slot = .uncounted (historyPlaintext header.version msg)) :
    header.msgCount.toNat = run.counted slot := by
  rcases historyReadHeader_cases hread with ⟨htrue, rfl⟩ | ⟨-, file, hfile, hlen, rfl⟩
  · rw [hnew htrue]
    rfl
  · have hnot : run.tail slot ≠ .torn := by
      rcases htail with ht | ht <;> rw [ht] <;> exact HistoryTail.noConfusion
    rw [h.counter slot file hfile hlen hnot, Nat.mod_eq_of_lt hcounted]

/-- The three tails an encryption can leave. -/
theorem AppendFaults.tail_cases (faults : AppendFaults) (header : HistoryHeader) (newFile : Bool)
    (plaintext : List UInt8) :
    (faults.completes header newFile = true ∧
        faults.tail header newFile plaintext = .counted) ∨
      (faults.completes header newFile = false ∧ faults.sparesCounter newFile = true ∧
        faults.tail header newFile plaintext = .uncounted plaintext) ∨
      faults.completes header newFile = false ∧ faults.tail header newFile plaintext = .torn := by
  rw [AppendFaults.tail]
  cases faults.completes header newFile <;> cases faults.sparesCounter newFile <;> simp

/-- The index after the counted ones is accounted for by the encryption that uses it, and so
is an earlier index whose plaintext it repeats. -/
theorem accounted_of_step {before : ℕ} {run : HistoryRun K} {slot : UInt8} {index : UInt16}
    {old new : List UInt8} {faults : AppendFaults} {header : HistoryHeader} {newFile : Bool}
    (hcounted : run.counted slot = before + (faults.completes header newFile).toNat)
    (htail : run.tail slot = faults.tail header newFile new)
    (hindex : index.toNat < before ∨ index.toNat = before ∧ old = new) :
    Accounted run slot index old := by
  rcases faults.tail_cases header newFile new with ⟨hc, ht⟩ | ⟨hc, -, ht⟩ | ⟨-, ht⟩
  · rw [Accounted, htail, ht, hcounted, hc]
    change index.toNat < before + 1
    omega
  · rw [Accounted, htail, ht, hcounted, hc]
    exact hindex
  · rw [Accounted, htail, ht]
    trivial

/-- What an accounted index says when the slot may encrypt again. -/
theorem Accounted.le {run : HistoryRun K} {slot : UInt8} {index : UInt16} {old new : List UInt8}
    (h : Accounted run slot index old)
    (htail : run.tail slot = .counted ∨ run.tail slot = .uncounted new) :
    index.toNat < run.counted slot ∨ index.toNat = run.counted slot ∧ old = new := by
  rcases htail with ht | ht
  · rw [Accounted, ht] at h
    exact Or.inl h
  · rwa [Accounted, ht] at h

/-- The run after an append that encrypts. -/
theorem HistoryRun.step_append {H : HistoryPrimitives K} {run : HistoryRun K} {slot : UInt8}
    {msg : HistoryMessage} {faults : AppendFaults} {header : HistoryHeader} {newFile : Bool}
    (h : appendSeals run.device slot faults = some (header, newFile)) :
    run.step H (.append slot msg faults) =
      { device := (smpHistoryAppend H run.device slot msg faults).1
        counted := Function.update run.counted slot
          (run.counted slot + (faults.completes header newFile).toNat)
        tail := Function.update run.tail slot
          (faults.tail header newFile (historyPlaintext header.version msg)) } := by
  simp only [HistoryRun.step, HistoryDevice.step, h]

/-- The counter on the card after a safe append that encrypts. -/
theorem HistoryInv.counter_append {H : HistoryPrimitives K} {run : HistoryRun K}
    (h : HistoryInv run) {slot : UInt8} {msg : HistoryMessage} {faults : AppendFaults}
    {header : HistoryHeader} {newFile : Bool}
    (hseals : appendSeals run.device slot faults = some (header, newFile))
    (hindex : header.msgCount.toNat = run.counted slot) (hnot : run.tail slot ≠ .torn)
    {file : List UInt8}
    (hfile : (smpHistoryAppend H run.device slot msg faults).1.sd (historyBuildPath slot) =
      some file) (hlen : historyHeaderSize ≤ file.length)
    (htail : faults.tail header newFile (historyPlaintext header.version msg) ≠ .torn) :
    (HistoryHeader.decode file).msgCount.toNat =
      (run.counted slot + (faults.completes header newFile).toNat) % 65536 := by
  obtain ⟨hread, happend⟩ := smpHistoryAppend_of_some H msg hseals
  have hold : newFile = false → ∃ file, run.device.sd (historyBuildPath slot) = some file ∧
      historyHeaderSize ≤ file.length ∧ HistoryHeader.decode file = header := by
    intro hf
    rcases historyReadHeader_cases hread with ⟨ht, -⟩ | ⟨-, hfile⟩
    · rw [hf] at ht
      cases ht
    · exact hfile
  rw [happend] at hfile
  have hexists : newFile = false → ∃ file, run.device.sd (historyBuildPath slot) = some file :=
    fun hf => let ⟨file, hf', _⟩ := hold hf; ⟨file, hf'⟩
  rcases historyWritePass_cases run.device.sd slot header (historyBuildNonce slot header.msgCount)
      (H.gcmEncrypt (historyDeriveKey H run.device.masterKey slot)
        (historyBuildNonce slot header.msgCount) (historyPlaintext header.version msg))
      msg.direction faults hexists with ⟨hshut, hsd⟩ | ⟨content, hopened, hcontent, hsd⟩
  · -- The file was not opened for writing, so the counter is the one before.
    have hcomplete : faults.completes header newFile = false := by
      simp only [AppendFaults.completes, hshut, Bool.false_and]
    simp only [hsd] at hfile
    rw [hcomplete, h.counter slot file hfile hlen hnot]
    rfl
  · simp only [hsd, Store.put_self, Option.some.injEq] at hfile
    have hbefore : newFile = false → historyHeaderSize ≤ content.length ∧
        HistoryHeader.decode content = header := by
      intro hf
      obtain ⟨old, hold, hlen, hdecode⟩ := hold hf
      obtain rfl : old = content := Option.some.inj (hold.symm.trans (hcontent hf))
      exact ⟨hlen, hdecode⟩
    subst hfile
    rcases faults.tail_cases header newFile (historyPlaintext header.version msg) with
      ⟨hc, -⟩ | ⟨hc, hspare, -⟩ | ⟨-, ht⟩
    · rw [historyAppended_msgCount_of_completes _ _ _ hbefore hc, hc, UInt16.toNat_add, hindex]
      rfl
    · rw [historyAppended_msgCount_of_spares _ _ _ hbefore hopened hspare, hc, ← hindex]
      exact (Nat.mod_eq_of_lt header.msgCount.toNat_lt).symm
    · exact absurd ht htail

/-- A safe append keeps the invariant. -/
theorem HistoryInv.append {H : HistoryPrimitives K} {run : HistoryRun K} (h : HistoryInv run)
    {slot : UInt8} {msg : HistoryMessage} {faults : AppendFaults}
    (hsafe : AppendSafe run slot msg faults) :
    HistoryInv (run.step H (.append slot msg faults)) := by
  cases hseals : appendSeals run.device slot faults with
  | none =>
    have hstep : run.step H (.append slot msg faults) = run := by
      simp only [HistoryRun.step, HistoryDevice.step, hseals]
      rw [smpHistoryAppend_of_none H msg hseals]
    rwa [hstep]
  | some found =>
    obtain ⟨header, newFile⟩ := found
    obtain ⟨hcounted, hnew, htail⟩ := hsafe header newFile hseals
    obtain ⟨hread, happend⟩ := smpHistoryAppend_of_some H msg hseals
    have hindex := h.index_eq hread hcounted hnew htail
    have hnot : run.tail slot ≠ .torn := by
      rcases htail with ht | ht <;> rw [ht] <;> exact HistoryTail.noConfusion
    rw [HistoryRun.step_append hseals]
    refine ⟨?_, ?_, ?_⟩
    · -- A second use of the nonce can only repeat the plaintext left uncounted.
      have hrepeat : ∀ e ∈ run.device.sealed, e.iv = historyBuildNonce slot header.msgCount →
          e.plaintext = historyPlaintext header.version msg := by
        intro e he hiv
        obtain ⟨slot', index, hiv', hacc⟩ := h.accounted e he
        obtain ⟨rfl, rfl⟩ := historyBuildNonce_inj.mp (hiv'.symm.trans hiv)
        rcases hacc.le htail with hlt | ⟨-, heq⟩
        · omega
        · exact heq
      rw [happend]
      intro e he e' he' hkey hiv
      rcases List.mem_cons.mp he with rfl | he
      · rcases List.mem_cons.mp he' with rfl | he'
        · rfl
        · exact (hrepeat e' he' hiv.symm).symm
      · rcases List.mem_cons.mp he' with rfl | he'
        · exact hrepeat e he hiv
        · exact h.unique e he e' he' hkey hiv
    · rw [happend]
      intro e he
      rcases List.mem_cons.mp he with rfl | he
      · exact ⟨slot, header.msgCount, rfl, accounted_of_step (Function.update_self ..)
          (Function.update_self ..) (Or.inr ⟨hindex, rfl⟩)⟩
      · obtain ⟨slot', index, hiv, hacc⟩ := h.accounted e he
        refine ⟨slot', index, hiv, ?_⟩
        by_cases hslot : slot' = slot
        · subst hslot
          exact accounted_of_step (Function.update_self ..) (Function.update_self ..)
            (hacc.le htail)
        · simpa [Accounted, Function.update_of_ne hslot] using hacc
    · intro slot' file hfile hlen htorn
      by_cases hslot : slot' = slot
      · subst hslot
        simp only [Function.update_self] at htorn ⊢
        exact h.counter_append hseals hindex hnot hfile hlen htorn
      · have hpath : historyBuildPath slot' ≠ historyBuildPath slot :=
          fun hp => hslot (historyBuildPath_inj.mp hp)
        simp only [Function.update_of_ne hslot] at htorn ⊢
        apply h.counter slot' file _ hlen htorn
        rw [happend] at hfile
        exact (historyWritePass_of_ne _ _ _ _ _ _ _ hpath).symm.trans hfile

/-- A step that leaves the encryptions, and the counters of the files that are left, keeps
the invariant. -/
theorem HistoryInv.of_device {run : HistoryRun K} (h : HistoryInv run) {dev : HistoryDevice K}
    (hsealed : dev.sealed = run.device.sealed)
    (hfiles : ∀ path file, dev.sd path = some file → historyHeaderSize ≤ file.length →
      ∃ old, run.device.sd path = some old ∧ historyHeaderSize ≤ old.length ∧
        (HistoryHeader.decode old).msgCount = (HistoryHeader.decode file).msgCount) :
    HistoryInv { run with device := dev } where
  unique := by
    intro e he e' he'
    rw [hsealed] at he he'
    exact h.unique e he e' he'
  accounted := by
    intro e he
    rw [hsealed] at he
    exact h.accounted e he
  counter := by
    intro slot file hfile hlen hnot
    obtain ⟨old, hold, holdLen, hcount⟩ := hfiles _ file hfile hlen
    rw [← hcount]
    exact h.counter slot old hold holdLen hnot

/-- A header written back with its counter unchanged leaves the counter of the file. -/
theorem rewriteHeader_same {file : List UInt8} {header : HistoryHeader}
    (hlen : historyHeaderSize ≤ file.length)
    (hcount : header.msgCount = (HistoryHeader.decode file).msgCount) (seekStart : Bool)
    (landed : ℕ) :
    (HistoryHeader.decode (historyRewriteHeader ⟨file, historyHeaderSize⟩ header seekStart
      landed).content).msgCount = (HistoryHeader.decode file).msgCount := by
  obtain ⟨hlow, hhigh⟩ := HistoryHeader.getElem?_counter hlen
  have hhead := (HistoryHeader.decode file).encode_msgCount
  rw [← hcount, ← header.encode_msgCount.1, ← header.encode_msgCount.2] at hhead
  cases seekStart with
  | false =>
    have hheld : CounterHeld ⟨file, historyHeaderSize⟩ (HistoryHeader.decode file) :=
      { low := hlow
        high := hhigh
        pos := Nat.lt_of_lt_of_le (by decide) (Nat.le_refl historyHeaderSize)
        pos_le := hlen }
    exact (hheld.fwrite _ _).msgCount
  | true =>
    -- Each counter byte is either written with its own value or not written.
    have hbyte : ∀ i < 32, file[i]? = header.encode[i]? →
        (historyRewriteHeader ⟨file, historyHeaderSize⟩ header true landed).content[i]? =
          file[i]? := by
      intro i hi hsame
      by_cases hlanded : i < landed
      · rw [hsame]
        exact fwrite_header_byte rfl header hlanded hi
      · have hdata : (header.encode.take landed).length ≤ i := by
          rw [List.length_take]
          omega
        exact writeAt_getElem?_of_ge (Nat.zero_le _) (by change 0 + _ ≤ i; omega)
    exact HistoryHeader.decode_msgCount_congr
      (hbyte 6 (by omega) (hlow.trans hhead.1)) (hbyte 7 (by omega) (hhigh.trans hhead.2))

/-- A header update changes nothing, or rewrites the header of a readable file. -/
theorem historyUpdateHeader_cases (change : HistoryHeader → Option HistoryHeader)
    (dev : HistoryDevice K) (slot : UInt8) (faults : UpdateFaults) :
    (historyUpdateHeader change dev slot faults).1 = dev ∨
      ∃ file header', dev.sd (historyBuildPath slot) = some file ∧
        historyHeaderSize ≤ file.length ∧ change (HistoryHeader.decode file) = some header' ∧
        (historyUpdateHeader change dev slot faults).1 =
          { dev with
            sd := dev.sd.put (historyBuildPath slot) (historyRewriteHeader
              ⟨file, historyHeaderSize⟩ header' faults.seekStart faults.headerLanded).content } := by
  rw [historyUpdateHeader]
  by_cases hready : dev.initialized = true ∧ slot < 128 ∧ faults.lock = true
  · obtain ⟨hinit, hslot, hlock⟩ := hready
    simp only [hinit, UInt8.not_le.mpr hslot, hlock, Bool.not_true, Bool.false_eq_true, if_false]
    cases hopen : (if faults.openUpdate then dev.sd (historyBuildPath slot) else none) with
    | none => exact Or.inl rfl
    | some file =>
      have hfile : dev.sd (historyBuildPath slot) = some file := by
        by_cases ho : faults.openUpdate = true
        · rwa [if_pos ho] at hopen
        · rw [if_neg ho] at hopen
          cases hopen
      cases hread : (if faults.readHeader then HistoryHeader.read file else none) with
      | none => exact Or.inl (by simp only [hread])
      | some header =>
        have hheader : HistoryHeader.read file = some header := by
          by_cases hr : faults.readHeader = true
          · rwa [if_pos hr] at hread
          · rw [if_neg hr] at hread
            cases hread
        obtain ⟨hlen, rfl⟩ := HistoryHeader.read_eq_some.mp hheader
        cases hchange : change (HistoryHeader.decode file) with
        | none => exact Or.inl (by simp only [hread, hchange])
        | some header' =>
          exact Or.inr ⟨file, header', hfile, hlen, hchange, by simp only [hread, hchange]⟩
  · left
    by_cases hinit : dev.initialized = true
    · by_cases hslot : slot < 128
      · simp [hinit, UInt8.not_le.mpr hslot, (by simpa [hinit, hslot] using hready :
          faults.lock = false)]
      · simp [hinit, UInt8.not_lt.mp hslot]
    · simp [hinit]

/-- A header update that leaves the counter keeps the invariant. -/
theorem HistoryInv.update {run : HistoryRun K} (h : HistoryInv run)
    {change : HistoryHeader → Option HistoryHeader}
    (hchange : ∀ header header', change header = some header' →
      header'.msgCount = header.msgCount) (slot : UInt8) (faults : UpdateFaults) :
    HistoryInv { run with device := (historyUpdateHeader change run.device slot faults).1 } := by
  rcases historyUpdateHeader_cases change run.device slot faults with
    hsame | ⟨old, header', hold, holdLen, hheader, hput⟩
  · rw [hsame]
    exact h
  · rw [hput]
    refine h.of_device (by rfl) ?_
    intro path file hfile hlen
    dsimp only at hfile
    by_cases hpath : path = historyBuildPath slot
    · subst hpath
      rw [Store.put_self, Option.some.injEq] at hfile
      subst hfile
      exact ⟨old, hold, holdLen,
        (rewriteHeader_same holdLen (hchange _ _ hheader) _ _).symm⟩
    · rw [Store.put_of_ne _ _ hpath] at hfile
      exact ⟨file, hfile, hlen, rfl⟩

/-- A safe step keeps the invariant. -/
theorem HistoryInv.step {H : HistoryPrimitives K} {run : HistoryRun K} (h : HistoryInv run)
    {action : HistoryAction} (hsafe : HistorySafe run action) :
    HistoryInv (run.step H action) := by
  have hkeep : ∀ path file, run.device.sd path = some file → historyHeaderSize ≤ file.length →
      ∃ old, run.device.sd path = some old ∧ historyHeaderSize ≤ old.length ∧
        (HistoryHeader.decode old).msgCount = (HistoryHeader.decode file).msgCount :=
    fun _ file hfile hlen => ⟨file, hfile, hlen, rfl⟩
  cases action with
  | init draw outcome =>
    have hfields : (run.device.smpHistoryInit draw outcome).sealed = run.device.sealed ∧
        (run.device.smpHistoryInit draw outcome).sd = run.device.sd := by
      unfold HistoryDevice.smpHistoryInit
      by_cases hinit : run.device.initialized = true
      · rw [if_pos hinit]
        exact ⟨rfl, rfl⟩
      · rw [if_neg hinit]
        cases outcome <;> cases run.device.nvsKey <;> exact ⟨rfl, rfl⟩
    apply h.of_device hfields.1
    intro path file hfile hlen
    rw [hfields.2] at hfile
    exact hkeep path file hfile hlen
  | append slot msg faults => exact h.append hsafe
  | markRead slot faults =>
    apply h.update
    intro header header' hheader
    obtain rfl := Option.some.inj hheader
    rfl
  | updateDelivered slot msgIndex faults =>
    apply h.update
    intro header header' hheader
    by_cases hgt : msgIndex > header.lastDeliveredIdx
    · rw [if_pos hgt] at hheader
      obtain rfl := Option.some.inj hheader
      rfl
    · rw [if_neg hgt] at hheader
      cases hheader
  | delete slot removed =>
    have hsealed : (smpHistoryDelete run.device slot removed).1.sealed = run.device.sealed := by
      rw [smpHistoryDelete]
      by_cases hslot : slot ≥ 128
      · rw [if_pos hslot]
      · rw [if_neg hslot]
    apply h.of_device hsealed
    intro path file hfile hlen
    change (smpHistoryDelete run.device slot removed).1.sd path = some file at hfile
    rw [smpHistoryDelete] at hfile
    by_cases hslot : slot ≥ 128
    · rw [if_pos hslot] at hfile
      exact hkeep path file hfile hlen
    · rw [if_neg hslot] at hfile
      cases removed with
      | false => exact hkeep path file hfile hlen
      | true =>
        change run.device.sd.erase (historyBuildPath slot) path = some file at hfile
        by_cases hpath : path = historyBuildPath slot
        · rw [hpath, Store.erase_self] at hfile
          cases hfile
        · rw [Store.erase_of_ne _ hpath] at hfile
          exact hkeep path file hfile hlen
  | reboot nvsErased => exact h.of_device rfl hkeep

/-- The run of a device that has never stored anything. -/
def HistoryRun.blank : HistoryRun K := ⟨.blank, fun _ => 0, fun _ => .counted⟩

/-- Nothing has been encrypted yet. -/
theorem historyInv_blank : HistoryInv (HistoryRun.blank : HistoryRun K) where
  unique _ he := absurd he List.not_mem_nil
  accounted _ he := absurd he List.not_mem_nil
  counter _ _ hfile := by cases hfile

/-- The device of a run is that of the plain steps. -/
theorem HistoryRun.device_runFrom (H : HistoryPrimitives K) (run : HistoryRun K)
    (actions : List HistoryAction) :
    (runFrom (HistoryRun.step H) run actions).device =
      runFrom (HistoryDevice.step H) run.device actions := by
  induction actions generalizing run with
  | nil => rfl
  | cons action actions ih =>
    have hdevice : (run.step H action).device = run.device.step H action := by
      cases action with
      | append slot msg faults =>
        simp only [HistoryRun.step]
        cases appendSeals run.device slot faults <;> rfl
      | _ => rfl
    rw [runFrom_cons, runFrom_cons, ih, hdevice]

/-- In a run of safe steps from a blank device no key and nonce see two plaintexts. -/
theorem nonces_unique (H : HistoryPrimitives K) (actions : List HistoryAction)
    (hsafe : StepsMeet (HistoryRun.step H) HistorySafe .blank actions) :
    NoncesUnique (runFrom (HistoryDevice.step H) .blank actions) := by
  have hstep : ∀ run action, HistoryInv run → HistorySafe run action →
      HistoryInv (run.step H action) := fun _ _ h hs => h.step hs
  have hunique := (hsafe.invariant hstep historyInv_blank).unique
  rwa [HistoryRun.device_runFrom] at hunique

/-- Symbolic history primitives: a key is what it was derived from. -/
def symbolicHistory : HistoryPrimitives (List UInt8 × List UInt8) where
  hkdfSha256 _ ikm info := (ikm, info)
  gcmEncrypt _ _ plaintext := (plaintext, zeroBytes 16)
  mac := zeroBytes 6
  gcmEncrypt_length _ _ _ := rfl

/-- An append that meets no fault. -/
def AppendFaults.none : AppendFaults where
  sdAvailable := true
  lock₁ := true
  openRead := true
  readHeader := true
  cpu := .none
  lock₂ := true
  openWrite := true
  headerLanded := 32
  lenLanded := 2
  ivLanded := 12
  ciphertextLanded := 65535
  tagLanded := 16
  counterLanded := 32
  seekEnd := true
  seekStart := true

/-- A sent message of one byte. -/
def oneByteMessage (b : UInt8) : HistoryMessage := ⟨0, 0, 0, 1, fun _ => b⟩

set_option maxRecDepth 4000 in
/-- Two appends to one slot are safe. -/
theorem nonces_unique_two_appends :
    StepsMeet (HistoryRun.step symbolicHistory) HistorySafe .blank
        [.init (zeroBytes 32) .works, .append 0 (oneByteMessage 65) .none,
          .append 0 (oneByteMessage 66) .none] ∧
      NoncesUnique (runFrom (HistoryDevice.step symbolicHistory) .blank
        [.init (zeroBytes 32) .works, .append 0 (oneByteMessage 65) .none,
          .append 0 (oneByteMessage 66) .none]) := by
  have hsafe : StepsMeet (HistoryRun.step symbolicHistory) HistorySafe .blank
      [.init (zeroBytes 32) .works, .append 0 (oneByteMessage 65) .none,
        .append 0 (oneByteMessage 66) .none] := by
    refine ⟨trivial, ?_, ?_, trivial⟩
    · intro header newFile _
      exact ⟨by decide, fun _ => rfl, Or.inl rfl⟩
    · intro header newFile hseals
      have hnewFile : (appendSeals (runFrom (HistoryDevice.step symbolicHistory) .blank
          [.init (zeroBytes 32) .works, .append 0 (oneByteMessage 65) .none]) 0 .none).map Prod.snd =
          some false := rfl
      have hfalse : newFile = false := Option.some.inj ((congrArg _ hseals).symm.trans hnewFile)
      exact ⟨by decide, fun ht => absurd (hfalse.symm.trans ht) Bool.noConfusion, Or.inl rfl⟩
  exact ⟨hsafe, nonces_unique symbolicHistory _ hsafe⟩

/-- Deleting a history and writing another in the slot uses its first nonce twice. -/
theorem nonces_reused_after_delete :
    ¬ NoncesUnique (runFrom (HistoryDevice.step symbolicHistory) .blank
      [.init (zeroBytes 32) .works, .append 0 (oneByteMessage 65) .none, .delete 0 true,
        .append 0 (oneByteMessage 66) .none]) := by
  intro h
  have hsame := h _ List.mem_cons_self _ (List.mem_cons_of_mem _ List.mem_cons_self) rfl rfl
  have hlast := congrArg List.getLast? hsame
  revert hlast
  decide

end SimpleGo
