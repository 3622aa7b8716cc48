import SimpleGo.History.Refinement

/-!
# Appends under faults

`smp_history_append` writes the record and then the header, and looks at the result of no
write. An append is atomic when afterwards the slot shows the old log or the log with the
message, goes on doing so when messages are appended later, and `ESP_OK` means that both
were written. This file proves exactly when it is: bytes of a record that the header does
not count stay in the file and hide every later message.

The slot has a file here. An append that makes one is looked at only as far as all its writes
land (`append_makes_file`).
-/

namespace SimpleGo

open Lib

variable {K : Type}

/-- How an append ends: it returns, having met faults (an error is not `ESP_OK`), or power is
lost when so many bytes of its writes have reached the card. -/
inductive AppendEnd where
  | returns (faults : AppendFaults) (hcpu : faults.cpu ≠ some .ok)
  | powerLost (bytes : ℕ)

/-- The writes of an append to an existing file up to a loss of power. -/
def AppendFaults.cut (sealedLen bytes : ℕ) : AppendFaults :=
  { AppendFaults.none with
    lenLanded := bytes
    ivLanded := bytes - 2
    ciphertextLanded := bytes - 14
    tagLanded := bytes - (14 + sealedLen)
    counterLanded := bytes - (30 + sealedLen) }

/-- The header pass 1 works with, in a slot whose file has the given header. -/
def AppendFaults.usedHeader (faults : AppendFaults) (slot : UInt8) (header : HistoryHeader) :
    HistoryHeader :=
  if faults.openRead then header else .fresh slot

/-- The length of the payload an append makes for a file with the given header. -/
def sealedLen (header : HistoryHeader) (msg : HistoryMessage) : ℕ :=
  (historyPlaintext header.version msg).length

/-- The device after an append to a file with the given header. After a loss of power it
starts again, with the key kept in NVS. -/
def AppendEnd.after (H : HistoryPrimitives K) (dev : HistoryDevice K) (slot : UInt8)
    (header : HistoryHeader) (msg : HistoryMessage) : AppendEnd → HistoryDevice K
  | .returns faults _ => (smpHistoryAppend H dev slot msg faults).1
  | .powerLost bytes =>
    (((smpHistoryAppend H dev slot msg (.cut (sealedLen header msg) bytes)).1.reboot
      false).smpHistoryInit (zeroBytes 32) .works)

/-- Every load without faults of a slot returns the last entries of a log. -/
def Shows (H : HistoryOpening K) (dev : HistoryDevice K) (slot : UInt8)
    (log : List HistoryMessage) : Prop :=
  ∀ (count : ℕ) (faults : LoadFaults) (heap : Mem), count ≤ historyMaxLoad →
    faults.Clean ((dev.sd (historyBuildPath slot)).getD []).length →
    (smpHistoryLoadRecent H dev slot count faults heap).1 = .ok ∧
      (smpHistoryLoadRecent H dev slot count faults heap).2.map HistoryMessage.entry =
        (log.map HistoryMessage.entry).rtake count

/-- A well-formed history file: a header that counts the messages of a log, and exactly their
records. -/
structure KeepsLog (H : HistoryPrimitives K) (dev : HistoryDevice K) (slot : UInt8)
    (header : HistoryHeader) (log : List HistoryMessage) : Prop where
  initialized : dev.initialized = true
  slot_lt : slot < 128
  magic : header.magic = historyMagic
  msgCount : header.msgCount.toNat = log.length
  file : dev.sd (historyBuildPath slot) = some (historyFile H
    (historyDeriveKey H dev.masterKey slot) slot header log)

/-- The number of messages the header of a slot's file counts. -/
def countedMessages (dev : HistoryDevice K) (slot : UInt8) : Option ℕ :=
  (dev.sd (historyBuildPath slot)).map fun file => (HistoryHeader.decode file).msgCount.toNat

/-- What atomicity asks of the append of `msg` to a slot that stores `log`. -/
structure AppendAtomic (H : HistoryOpening K) (dev : HistoryDevice K) (slot : UInt8)
    (header : HistoryHeader) (log : List HistoryMessage) (msg : HistoryMessage)
    (ending : AppendEnd) : Prop where
  /-- Loads return every earlier message, and the new one or not. -/
  shows : Shows H (ending.after H.toHistoryPrimitives dev slot header msg) slot log ∨
    Shows H (ending.after H.toHistoryPrimitives dev slot header msg) slot (log ++ [msg])
  /-- A message appended later is loaded too. -/
  next : ∀ (later : HistoryMessage) (faults : AppendFaults), faults.Clean later →
    let dev' := ending.after H.toHistoryPrimitives dev slot header msg
    (smpHistoryAppend H.toHistoryPrimitives dev' slot later faults).2 = .ok →
    Shows H (smpHistoryAppend H.toHistoryPrimitives dev' slot later faults).1 slot
        (log ++ [later]) ∨
      Shows H (smpHistoryAppend H.toHistoryPrimitives dev' slot later faults).1 slot
        (log ++ [msg] ++ [later])
  /-- Success means that the record and the header that counts it were written. -/
  written : ∀ faults hcpu, ending = .returns faults hcpu →
    (smpHistoryAppend H.toHistoryPrimitives dev slot msg faults).2 = .ok →
    faults.Written (!faults.openRead) (sealedLen (faults.usedHeader slot header) msg) ∧
      countedMessages (smpHistoryAppend H.toHistoryPrimitives dev slot msg faults).1 slot =
        some (log.length + 1)

/-- The condition for atomicity: the append changes nothing, or it counts a record that is
whole; and the 16-bit counter has room for the messages. -/
def AppendEnd.Spares (slot : UInt8) (header : HistoryHeader) (log : List HistoryMessage)
    (msg : HistoryMessage) : AppendEnd → Prop
  | .returns faults _ =>
    (¬ faults.Reaches ∧ log.length + 1 < 65536) ∨
      (faults.Reaches ∧ (faults.openRead = true ∨ log = []) ∧
        faults.Written (!faults.openRead) (sealedLen (faults.usedHeader slot header) msg) ∧
        log.length + 2 < 65536)
  | .powerLost bytes =>
    (bytes = 0 ∧ log.length + 1 < 65536) ∨
      (30 + sealedLen header msg + (if log.length % 256 = 255 then 8 else 7) ≤ bytes ∧
        log.length + 2 < 65536)

/-! ### Headers written in part -/

/-- The bytes of a word read from memory. -/
theorem le16_word (file : List UInt8) (p : ℕ) :
    le16 (HistoryHeader.word file p) = [file.getD p 0, file.getD (p + 1) 0] := by
  have hlow := (file.getD p 0).toNat_lt
  have hhigh := (file.getD (p + 1) 0).toNat_lt
  have hword : (HistoryHeader.word file p).toNat =
      (file.getD p 0).toNat + 256 * (file.getD (p + 1) 0).toNat :=
    UInt16.toNat_ofNat_of_lt (by rw [UInt16.size]; omega)
  rw [le16, hword]
  congr 1
  · apply UInt8.toNat_inj.mp
    rw [toNat_ofNat_mod]
    omega
  · congr 1
    apply UInt8.toNat_inj.mp
    rw [toNat_ofNat_mod]
    omega

/-- A list is the window of its memory. -/
theorem window_getD (l : List UInt8) : window (fun i => l.getD i 0) 0 l.length = l :=
  holds_memOf l fun _ => 0

/-- A header read from 32 bytes has these bytes. -/
theorem HistoryHeader.encode_decode {l : List UInt8} (hlen : l.length = 32) :
    (decode l).encode = l := by
  have hmagic : (decode l).magic.toList = window (fun i => l.getD i 0) 0 4 := by
    rw [← windowBytes_toList]
    simp only [windowBytes, decode, Nat.zero_add]
  have hreserved : (decode l).reserved.toList = window (fun i => l.getD i 0) 12 20 := by
    rw [← windowBytes_toList]
    simp only [windowBytes, decode]
  have hfields : [(decode l).version, (decode l).slotIndex] ++ le16 (decode l).msgCount ++
      le16 (decode l).unreadCount ++ le16 (decode l).lastDeliveredIdx =
        window (fun i => l.getD i 0) 4 8 := by
    simp [decode, le16_word, window, List.range_succ]
  have hall : window (fun i => l.getD i 0) 0 (4 + 8 + 20) = l := by
    rw [show 4 + 8 + 20 = l.length by omega]
    exact window_getD l
  rw [window_add, window_add] at hall
  calc (decode l).encode = (decode l).magic.toList ++ ([(decode l).version, (decode l).slotIndex] ++
        le16 (decode l).msgCount ++ le16 (decode l).unreadCount ++
          le16 (decode l).lastDeliveredIdx) ++ (decode l).reserved.toList := by
        simp only [encode, List.append_assoc]
    _ = l := by rw [hmagic, hfields, hreserved]; exact hall

/-- The first five bytes of a header are its magic and its version. -/
theorem HistoryHeader.encode_head (header : HistoryHeader) {i : ℕ} (hi : i < 5) :
    header.encode[i]? = (header.magic.toList ++ [header.version])[i]? := by
  have hsplit : header.encode = (header.magic.toList ++ [header.version]) ++
      ([header.slotIndex] ++ le16 header.msgCount ++ le16 header.unreadCount ++
        le16 header.lastDeliveredIdx ++ header.reserved.toList) := by
    simp only [encode, List.append_assoc, List.cons_append, List.nil_append]
  rw [hsplit, List.getElem?_append_left (by simpa using hi)]

/-- A header of which the first bytes are written over another one: the magic and the version
stay, and each byte of the counter is the new one when it was written. -/
theorem HistoryHeader.exists_mixed (header header' : HistoryHeader)
    (hmagic : header'.magic = header.magic) (hversion : header'.version = header.version) (k : ℕ) :
    ∃ mixed : HistoryHeader, mixed.encode = header'.encode.take k ++ header.encode.drop k ∧
      mixed.magic = header.magic ∧ mixed.version = header.version ∧
      mixed.msgCount.toNat = (if 6 < k then header' else header).msgCount.toNat % 256 +
        256 * ((if 7 < k then header' else header).msgCount.toNat / 256) := by
  have hbyte : ∀ i, (header'.encode.take k ++ header.encode.drop k)[i]? =
      if i < k then header'.encode[i]? else header.encode[i]? := by
    intro i
    by_cases hk : i < k
    · rw [if_pos hk]
      by_cases hi : i < 32
      · rw [List.getElem?_append_left (by rw [List.length_take, encode_length]; omega),
          List.getElem?_take_of_lt hk]
      · have hlen : (header'.encode.take k ++ header.encode.drop k).length ≤ i := by
          rw [List.length_append, List.length_take, List.length_drop, encode_length, encode_length]
          omega
        rw [List.getElem?_eq_none hlen, List.getElem?_eq_none (by rw [encode_length]; omega)]
    · have htake : (header'.encode.take k).length ≤ i := by
        rw [List.length_take]
        omega
      rw [if_neg hk, List.getElem?_append_right htake, List.getElem?_drop]
      by_cases hk' : k ≤ 32
      · rw [List.length_take, encode_length, Nat.min_eq_left hk', Nat.add_sub_cancel' (by omega)]
      · rw [List.getElem?_eq_none (by rw [encode_length]; omega),
          List.getElem?_eq_none (by rw [encode_length]; omega)]
  have hlen : (header'.encode.take k ++ header.encode.drop k).length = 32 := by
    rw [List.length_append, List.length_take, List.length_drop, encode_length, encode_length]
    omega
  have hhead : ∀ i < 5, (header'.encode.take k ++ header.encode.drop k).getD i 0 =
      (header.encode ++ []).getD i 0 := by
    intro i hi
    rw [List.getD_eq_getElem?_getD, hbyte, header'.encode_head hi, hmagic, hversion,
      ← header.encode_head hi, ite_self, List.append_nil, List.getD_eq_getElem?_getD]
  have hold := header.decode_encode_append []
  refine ⟨decode (header'.encode.take k ++ header.encode.drop k), encode_decode hlen, ?_, ?_, ?_⟩
  · rw [← congrArg HistoryHeader.magic hold]
    refine congrArg Vector.ofFn ?_
    funext i
    exact hhead i.val (by omega)
  · rw [← congrArg HistoryHeader.version hold]
    exact hhead 4 (by omega)
  · have hlow := (if 6 < k then header' else header).encode_msgCount.1
    have hhigh := (if 7 < k then header' else header).encode_msgCount.2
    rw [apply_ite HistoryHeader.encode, apply_ite (fun l : List UInt8 => l[6]?), ← hbyte 6] at hlow
    rw [apply_ite HistoryHeader.encode, apply_ite (fun l : List UInt8 => l[7]?), ← hbyte 7] at hhigh
    have hbound := (if 7 < k then header' else header).msgCount.toNat_lt
    simp only [decode, word, List.getD_eq_getElem?_getD, hlow, hhigh, Option.getD_some,
      toNat_ofNat_mod]
    refine (UInt16.toNat_ofNat_of_lt ?_).trans ?_
    · rw [UInt16.size]
      omega
    · omega

/-! ### Well-formed files -/

section WellFormed

variable {H : HistoryOpening K} {dev : HistoryDevice K} {slot : UInt8} {header : HistoryHeader}
  {log : List HistoryMessage}

/-- The slot of a well-formed file shows its log. -/
theorem KeepsLog.shows (h : KeepsLog H.toHistoryPrimitives dev slot header log) :
    Shows H dev slot log := by
  intro count faults heap hmax hclean
  rw [h.file, Option.getD_some] at hclean
  rw [smpHistoryLoadRecent_records H h.initialized h.slot_lt h.file (List.append_nil _).symm
    h.msgCount hclean hmax heap]
  exact ⟨rfl, by rw [rtake_map, map_entry_historyShown]⟩

/-- The counter of the header of a well-formed file. -/
theorem KeepsLog.countedMessages_eq (h : KeepsLog H.toHistoryPrimitives dev slot header log) :
    countedMessages dev slot = some log.length := by
  rw [countedMessages, h.file, Option.map_some, historyFile,
    HistoryHeader.decode_encode_append, h.msgCount]

/-- The counter of a header goes up by one while it has room. -/
theorem HistoryHeader.counted_msgCount (header : HistoryHeader) (direction : UInt8) :
    (header.counted direction).msgCount.toNat = (header.msgCount.toNat + 1) % 65536 := by
  rw [counted, UInt16.toNat_add]
  rfl

/-- The file after an append that was written, when the counter has room. -/
theorem AppendedTo.keepsLog {dev' : HistoryDevice K} {msg : HistoryMessage}
    (hafter : AppendedTo H.toHistoryPrimitives dev slot header
      (historyRecords H.toHistoryPrimitives
        (historyDeriveKey H.toHistoryPrimitives dev.masterKey slot) slot header.version 0 log)
      msg dev') (hinit : dev.initialized = true) (hslot : slot < 128)
    (hmagic : header.magic = historyMagic) (hcount : header.msgCount.toNat = log.length)
    (hroom : log.length + 1 < 65536) :
    KeepsLog H.toHistoryPrimitives dev' slot (header.counted msg.direction) (log ++ [msg]) where
  initialized := hafter.initialized.trans hinit
  slot_lt := hslot
  magic := hmagic
  msgCount := by
    rw [header.counted_msgCount, hcount, Nat.mod_eq_of_lt hroom, List.length_append,
      List.length_singleton]
  file := by
    rw [hafter.file, hafter.masterKey]
    simp only [historyFile, historyRecords_append, historyRecords, Nat.zero_add, List.append_nil,
      hcount, HistoryHeader.counted]

/-- An append without faults to a well-formed file whose counter has room. -/
theorem KeepsLog.append (h : KeepsLog H.toHistoryPrimitives dev slot header log)
    {msg : HistoryMessage} {faults : AppendFaults} (hclean : faults.Clean msg)
    (hroom : log.length + 1 < 65536) :
    KeepsLog H.toHistoryPrimitives (smpHistoryAppend H.toHistoryPrimitives dev slot msg faults).1
      slot (header.counted msg.direction) (log ++ [msg]) :=
  (smpHistoryAppend_file H.toHistoryPrimitives h.initialized h.slot_lt hclean.reaches
    hclean.openRead (hclean.written_plaintext false header.version) h.file h.magic).1.keepsLog
      h.initialized h.slot_lt h.magic h.msgCount hroom

/-- The first append to a slot, all of whose writes land, makes a well-formed file. -/
theorem append_makes_file (hinit : dev.initialized = true) (hslot : slot < 128)
    (hnone : dev.sd (historyBuildPath slot) = none) {msg : HistoryMessage} {faults : AppendFaults}
    (hreaches : faults.Reaches)
    (hwritten : faults.Written true (sealedLen (.fresh slot) msg)) :
    KeepsLog H.toHistoryPrimitives (smpHistoryAppend H.toHistoryPrimitives dev slot msg faults).1
        slot ((HistoryHeader.fresh slot).counted msg.direction) [msg] ∧
      (smpHistoryAppend H.toHistoryPrimitives dev slot msg faults).2 = .ok := by
  obtain ⟨hafter, hok⟩ := smpHistoryAppend_new H.toHistoryPrimitives hinit hslot hreaches hwritten
    (by rw [hnone, ite_self])
  have hrecords : AppendedTo H.toHistoryPrimitives dev slot (.fresh slot)
      (historyRecords H.toHistoryPrimitives
        (historyDeriveKey H.toHistoryPrimitives dev.masterKey slot) slot
        (HistoryHeader.fresh slot).version 0 []) msg
      (smpHistoryAppend H.toHistoryPrimitives dev slot msg faults).1 := hafter
  exact ⟨hrecords.keepsLog hinit hslot rfl rfl (by decide), hok⟩

end WellFormed

/-! ### Bytes that are not counted -/

@[simp] theorem historyParse_direction (header : HistoryHeader) (msgIdx : UInt16)
    (plaintext : Mem) : (historyParse header msgIdx plaintext).direction = plaintext 0 := rfl

/-- The direction of a decrypted record is its first ciphertext byte under the keystream; a
record without ciphertext has the first byte of the tag there. -/
theorem historyOpenRecord_direction {H : HistoryOpening K} {key : K} {header : HistoryHeader}
    {rawBuf : Mem} {msgIdx : UInt16} {off : ℕ} {msg : HistoryMessage}
    (h : historyOpenRecord H key header rawBuf msgIdx off = some msg) :
    30 ≤ read16 rawBuf off ∧ msg.direction =
      if read16 rawBuf off = 30 then rawBuf (off + 14)
      else rawBuf (off + 14) ^^^ H.keystream key (windowBytes rawBuf (off + 2) 12) 0 := by
  have hbound := read16_lt rawBuf off
  simp only [historyOpenRecord] at h
  by_cases hlarge : (4294967266 + read16 rawBuf off) % 4294967296 > 11 + historyMaxPayload
  · rw [if_pos hlarge] at h
    cases h
  · have hlen : 30 ≤ read16 rawBuf off := by
      rw [historyMaxPayload] at hlarge
      omega
    have hct : (4294967266 + read16 rawBuf off) % 4294967296 = read16 rawBuf off - 30 := by omega
    rw [if_neg hlarge, hct] at h
    refine ⟨hlen, ?_⟩
    cases hopen : H.gcmDecrypt key (windowBytes rawBuf (off + 2) 12)
        (window rawBuf (off + 14) (read16 rawBuf off - 30))
        (windowBytes rawBuf (off + 14 + (read16 rawBuf off - 30)) 16) with
    | none =>
      rw [hopen] at h
      cases h
    | some plaintext =>
      rw [hopen] at h
      have hmsg := Option.some.inj h
      have hplain := H.gcmDecrypt_keystream hopen
      rw [← hmsg, historyParse_direction, memOf, hplain]
      by_cases hempty : read16 rawBuf off = 30
      · rw [if_pos hempty, hempty]
        simp [window]
      · obtain ⟨n, hn⟩ : ∃ n, read16 rawBuf off - 30 = n + 1 :=
          ⟨read16 rawBuf off - 31, by omega⟩
        rw [if_neg hempty, hn, window_succ]
        simp

/-- What the first 15 bytes behind the skipped records say about the direction of the message
read there. -/
def junkDirection (H : HistoryOpening K) (key : K) (tail : List UInt8) : UInt8 :=
  let raw := memOf (tail.take 15) fun _ => 0
  if read16 raw 0 = 30 then raw 14 else raw 14 ^^^ H.keystream key (windowBytes raw 2 12) 0

/-- Reading one record finds none, or puts its bytes at the start of the buffer. -/
theorem historyReadRecords_one (file : List UInt8) (start bufAlloc : ℕ) :
    (historyReadRecords file start bufAlloc 1 0).1 = [] ∨
      ∃ recLen, historyRecordLen file start = some recLen ∧
        historyReadRecords file start bufAlloc 1 0 =
          ([0], 2 + (4294967294 + recLen) % 4294967296) := by
  simp only [historyReadRecords, Nat.add_zero]
  cases hrecLen : historyRecordLen file start with
  | none => exact Or.inl rfl
  | some recLen =>
    dsimp only
    by_cases hbig : (0 + 2 + (4294967294 + recLen) % 4294967296) % 4294967296 > bufAlloc
    · rw [if_pos hbig]
      exact Or.inl rfl
    · rw [if_neg hbig]
      by_cases hshort : file.length < start + 2 + (4294967294 + recLen) % 4294967296
      · rw [if_pos hshort]
        exact Or.inl rfl
      · rw [if_neg hshort, Nat.zero_add]
        exact Or.inr ⟨recLen, rfl, rfl⟩

/-- A load of one message from arbitrary bytes behind the skipped records. -/
theorem historyLoadFrom_one (H : HistoryOpening K) (key : K) (slot : UInt8)
    (header : HistoryHeader) (log : List HistoryMessage) (tail : List UInt8)
    (htail : 15 ≤ tail.length) (heap : Mem) :
    ∀ msg ∈ (historyLoadFrom H key header
      (historyFile H.toHistoryPrimitives key slot header log ++ tail) log.length 1 heap).2,
      msg.direction = junkDirection H key tail := by
  have hskip := historySkip_records H.toHistoryPrimitives key slot header.version 0 log
    header.encode tail
  rw [HistoryHeader.encode_length, ← List.append_assoc] at hskip
  intro msg hmsg
  simp only [historyLoadFrom, Int.toNat_natCast, show historyHeaderSize = 32 from rfl] at hmsg
  rw [historyFile, hskip] at hmsg
  -- The bytes of the file from the record's start on.
  have htailByte : ∀ i, (header.encode ++ historyRecords H.toHistoryPrimitives key slot
      header.version 0 log ++ tail)[32 + (historyRecords H.toHistoryPrimitives key slot
        header.version 0 log).length + i]? = tail[i]? := by
    intro i
    rw [List.getElem?_append_right (by rw [List.length_append, HistoryHeader.encode_length]; omega),
      List.length_append, HistoryHeader.encode_length, Nat.add_sub_cancel_left]
  generalize header.encode ++ historyRecords H.toHistoryPrimitives key slot header.version 0 log ++
    tail = file at hmsg htailByte
  generalize 32 + (historyRecords H.toHistoryPrimitives key slot header.version 0 log).length =
    start at hmsg htailByte
  have hmem : ∀ i < 15, memOf (tail.take 15) (fun _ => 0) i = tail.getD i 0 := by
    intro i hi
    rw [memOf, List.getD_eq_getElem?_getD, List.getElem?_take_of_lt hi,
      List.getD_eq_getElem?_getD]
  have hread : historyRecordLen file start =
      some (read16 (memOf (tail.take 15) fun _ => 0) 0) := by
    have hfirst := htailByte 0
    rw [Nat.add_zero] at hfirst
    rw [historyRecordLen, hfirst, htailByte 1, read16, hmem 0 (by omega), hmem 1 (by omega),
      List.getD_eq_getElem?_getD, List.getD_eq_getElem?_getD,
      List.getElem?_eq_getElem (by omega : 0 < tail.length),
      List.getElem?_eq_getElem (by omega : 1 < tail.length)]
    rfl
  have hmin : min (1 : ℤ).toNat historyMaxLoad = 1 := rfl
  rw [hmin] at hmsg
  dsimp only at hmsg
  generalize (1 * 16041 % 4294967296 : ℤ).toNat = bufAlloc at hmsg
  rcases historyReadRecords_one file start bufAlloc with hnone | ⟨recLen, hrecLen, hone⟩
  · simp [hnone, historyOpenRecords] at hmsg
  · rw [hread, Option.some.injEq] at hrecLen
    simp only [hone, historyOpenRecords] at hmsg
    generalize hraw : (fun i => if i < 2 + (4294967294 + recLen) % 4294967296 then
      file.getD (start + i) 0 else heap i) = rawBuf at hmsg
    have hbyte : ∀ i < 15, i < 2 + (4294967294 + recLen) % 4294967296 →
        rawBuf i = memOf (tail.take 15) (fun _ => 0) i := by
      intro i hi hused
      rw [← hraw, hmem i hi]
      dsimp only
      rw [if_pos hused, List.getD_eq_getElem?_getD, htailByte,
        List.getD_eq_getElem?_getD]
    have hraw16 : read16 rawBuf 0 = recLen := by
      rw [← hrecLen, read16, read16, hbyte 0 (by omega) (by omega), hbyte 1 (by omega) (by omega)]
    cases hopen : historyOpenRecord H key header rawBuf (UInt16.ofNat log.length) 0 with
    | none => simp [hopen] at hmsg
    | some found =>
      simp only [hopen, List.mem_singleton] at hmsg
      obtain ⟨hlen, hdirection⟩ := historyOpenRecord_direction hopen
      have hbound := read16_lt rawBuf 0
      rw [hraw16] at hlen hbound
      have hiv : windowBytes rawBuf (0 + 2) 12 =
          windowBytes (memOf (tail.take 15) fun _ => 0) 2 12 := by
        apply Vector.ext
        intro i hi
        simp only [windowBytes, Vector.getElem_ofFn]
        exact hbyte _ (by omega) (by omega)
      rw [hmsg, hdirection, hiv, hraw16, Nat.zero_add, hbyte 14 (by omega) (by omega),
        junkDirection, hrecLen]

/-- A message without text. -/
def emptyMessage (direction : UInt8) : HistoryMessage := ⟨direction, 0, 0, 0, fun _ => 0⟩

/-- An append that meets no fault, of a message without text. -/
theorem AppendFaults.none_clean_empty (direction : UInt8) :
    AppendFaults.none.Clean (emptyMessage direction) where
  reaches := ⟨rfl, rfl, fun _ => rfl, rfl, rfl, rfl⟩
  openRead := rfl
  written newFile := ⟨fun _ => by decide, fun _ => rfl, by decide, by decide,
    by change 12 + min 0 4096 ≤ 65535; decide, by decide, rfl, by decide⟩

/-- The direction of a message without text does not reach the first fifteen bytes behind the
records when there is something before its record. -/
theorem take_junk_record (H : HistoryPrimitives K) (key : K) (slot version : UInt8) (index : ℕ)
    {junk : List UInt8} (hjunk : junk ≠ []) (direction direction' : UInt8) :
    (junk ++ historyRecord H key slot version index (emptyMessage direction)).take 15 =
      (junk ++ historyRecord H key slot version index (emptyMessage direction')).take 15 := by
  have hpre : ∀ d, (junk ++ historyRecord H key slot version index (emptyMessage d)).take 15 =
      (junk ++ (be16 (2 + 12 + (historyPlaintext version (emptyMessage 0)).length + 16) ++
        (historyBuildNonce slot (UInt16.ofNat index)).toList)).take 15 := by
    intro d
    have hlen : (historyPlaintext version (emptyMessage d)).length =
        (historyPlaintext version (emptyMessage 0)).length := by
      rw [historyPlaintext_length, historyPlaintext_length]
      rfl
    have hone := List.length_pos_iff.mpr hjunk
    rw [historyRecord, sealedRecord, H.gcmEncrypt_length, hlen, List.append_assoc,
      ← List.append_assoc junk, List.take_append_of_le_length]
    rw [List.length_append, List.length_append, be16_length, Vector.length_toList]
    omega
  rw [hpre direction, hpre direction']

/-- A message appended behind bytes that the header does not count, or to a full counter, is
not loaded. -/
theorem exists_not_shows_next (H : HistoryOpening K) {dev : HistoryDevice K} {slot : UInt8}
    (hinit : dev.initialized = true) (hslot : slot < 128) {header : HistoryHeader}
    (hmagic : header.magic = historyMagic) {log : List HistoryMessage} {junk : List UInt8}
    (hfile : dev.sd (historyBuildPath slot) = some (historyFile H.toHistoryPrimitives
      (historyDeriveKey H.toHistoryPrimitives dev.masterKey slot) slot header log ++ junk))
    (hcount : header.msgCount.toNat = log.length) (hjunk : junk ≠ [] ∨ log.length = 65535) :
    ∃ later : HistoryMessage, ∃ faults : AppendFaults, faults.Clean later ∧
      (smpHistoryAppend H.toHistoryPrimitives dev slot later faults).2 = .ok ∧
      ∀ early, ¬ Shows H (smpHistoryAppend H.toHistoryPrimitives dev slot later faults).1 slot
        (early ++ [later]) := by
  rw [historyFile, List.append_assoc] at hfile
  -- Every direction leaves the same bytes where the load looks; take another one.
  obtain ⟨direction, hdirection⟩ : ∃ direction : UInt8, direction ≠ junkDirection H
      (historyDeriveKey H.toHistoryPrimitives dev.masterKey slot)
      (junk ++ historyRecord H.toHistoryPrimitives
        (historyDeriveKey H.toHistoryPrimitives dev.masterKey slot) slot header.version
        log.length (emptyMessage 0)) := by
    generalize junkDirection H _ _ = taken
    by_cases htaken : taken = 0
    · exact ⟨1, by rw [htaken]; decide⟩
    · exact ⟨0, Ne.symm htaken⟩
  have hclean := AppendFaults.none_clean_empty direction
  obtain ⟨hafter, hok⟩ := smpHistoryAppend_file H.toHistoryPrimitives hinit hslot hclean.reaches
    hclean.openRead (hclean.written_plaintext false header.version) hfile hmagic
  refine ⟨emptyMessage direction, .none, hclean, hok, ?_⟩
  intro early hshows
  have hinit' := hafter.initialized.trans hinit
  have hreadable : LoadFaults.Clean ⟨true, none, true, true,
      (((smpHistoryAppend H.toHistoryPrimitives dev slot (emptyMessage direction) .none).1.sd
        (historyBuildPath slot)).getD []).length, true⟩ _ :=
    ⟨rfl, rfl, rfl, rfl, Nat.le_refl _, rfl⟩
  obtain ⟨-, hentries⟩ := hshows 1 _ (fun _ => 0) (by decide) hreadable
  rw [hafter.file, Option.getD_some] at hreadable hentries
  rw [smpHistoryLoadRecent_of_file H hinit' hslot hafter.file rfl hreadable, hafter.masterKey,
    header.counted_msgCount, hcount] at hentries
  have hlast : (List.map HistoryMessage.entry (early ++ [emptyMessage direction])).rtake 1 =
      [(emptyMessage direction).entry] := by
    rw [← rtake_map]
    simp [List.rtake]
  rw [hlast] at hentries
  by_cases hfull : log.length = 65535
  · rw [hfull, if_pos (by rfl)] at hentries
    cases hentries
  · have hbound := header.msgCount.toNat_lt
    have hmod : (log.length + 1) % 65536 = log.length + 1 := Nat.mod_eq_of_lt (by omega)
    have hstart : historyStartIdx ((log.length + 1 : ℕ) : ℤ) (1 : ℕ) = (log.length : ℤ) := by
      rw [historyStartIdx]
      split <;> omega
    have hload : min (((log.length + 1 : ℕ) : ℤ) - (log.length : ℤ)) (1 : ℕ) = 1 := by omega
    rw [hmod, if_neg (by omega), hstart, hload] at hentries
    have hdirections := historyLoadFrom_one H
      (historyDeriveKey H.toHistoryPrimitives dev.masterKey slot) slot
      (header.counted direction) log
      (junk ++ historyRecord H.toHistoryPrimitives
        (historyDeriveKey H.toHistoryPrimitives dev.masterKey slot) slot header.version
        log.length (emptyMessage direction)) (by
          have hrecord := (historyRecord_length_bounds H.toHistoryPrimitives
            (historyDeriveKey H.toHistoryPrimitives dev.masterKey slot) slot header.version
            log.length (emptyMessage direction)).1
          rw [List.length_append]
          omega) (fun _ => 0)
    have hsame : historyFile H.toHistoryPrimitives
        (historyDeriveKey H.toHistoryPrimitives dev.masterKey slot) slot (header.counted direction)
        log ++ (junk ++ historyRecord H.toHistoryPrimitives
          (historyDeriveKey H.toHistoryPrimitives dev.masterKey slot) slot header.version
          log.length (emptyMessage direction)) =
        (header.counted direction).encode ++ (historyRecords H.toHistoryPrimitives
          (historyDeriveKey H.toHistoryPrimitives dev.masterKey slot) slot header.version 0 log ++
            junk ++ historyRecord H.toHistoryPrimitives
              (historyDeriveKey H.toHistoryPrimitives dev.masterKey slot) slot header.version
              log.length (emptyMessage direction)) := by
      simp only [historyFile, List.append_assoc]
      rfl
    rw [hsame] at hdirections
    obtain ⟨msg, hmsg, hentry⟩ := List.map_eq_singleton_iff.mp hentries
    have hmsgDirection := hdirections msg (hmsg ▸ List.mem_singleton_self msg)
    have hsameDirection : msg.direction = direction := congrArg ChatEntry.direction hentry
    have hjunk' : junk ≠ [] := hjunk.resolve_right hfull
    apply hdirection
    rw [← hsameDirection, hmsgDirection, junkDirection, junkDirection, take_junk_record _ _ _ _ _
      hjunk' direction 0]

/-! ### Ends of an append -/

section Ends

variable {H : HistoryOpening K} {dev : HistoryDevice K} {slot : UInt8} {header : HistoryHeader}
  {log : List HistoryMessage} {msg : HistoryMessage}

/-- Where the slot keeps the log or the log with the message, with room for another one. -/
theorem AppendAtomic.of_keepsLog (ending : AppendEnd) {header' : HistoryHeader}
    {log' : List HistoryMessage}
    (hafter : KeepsLog H.toHistoryPrimitives
      (ending.after H.toHistoryPrimitives dev slot header msg) slot header' log')
    (hlog : log' = log ∨ log' = log ++ [msg]) (hroom : log'.length + 1 < 65536)
    (hwritten : ∀ faults hcpu, ending = .returns faults hcpu →
      (smpHistoryAppend H.toHistoryPrimitives dev slot msg faults).2 = .ok →
      faults.Written (!faults.openRead) (sealedLen (faults.usedHeader slot header) msg) ∧
        countedMessages (smpHistoryAppend H.toHistoryPrimitives dev slot msg faults).1 slot =
          some (log.length + 1)) :
    AppendAtomic H dev slot header log msg ending where
  shows := by
    rcases hlog with rfl | rfl
    · exact Or.inl hafter.shows
    · exact Or.inr hafter.shows
  next := by
    intro later faults hclean _ _
    have hnext := (hafter.append hclean hroom).shows
    rcases hlog with rfl | rfl
    · exact Or.inl hnext
    · exact Or.inr hnext
  written := hwritten

/-- Where the slot's file has bytes that its header does not count, or a full counter. -/
theorem not_appendAtomic_of_junk (ending : AppendEnd) {header' : HistoryHeader}
    {log' : List HistoryMessage}
    {junk : List UInt8}
    (hinit : (ending.after H.toHistoryPrimitives dev slot header msg).initialized = true)
    (hslot : slot < 128) (hmagic : header'.magic = historyMagic)
    (hfile : (ending.after H.toHistoryPrimitives dev slot header msg).sd (historyBuildPath slot) =
      some (historyFile H.toHistoryPrimitives (historyDeriveKey H.toHistoryPrimitives
        (ending.after H.toHistoryPrimitives dev slot header msg).masterKey slot) slot header' log' ++
          junk))
    (hcount : header'.msgCount.toNat = log'.length) (hjunk : junk ≠ [] ∨ log'.length = 65535) :
    ¬ AppendAtomic H dev slot header log msg ending := by
  intro hatomic
  obtain ⟨later, faults, hclean, hok, hhidden⟩ :=
    exists_not_shows_next H hinit hslot hmagic hfile hcount hjunk
  rcases hatomic.next later faults hclean hok with hshows | hshows
  · exact hhidden _ hshows
  · exact hhidden _ hshows

/-- Pass 1 fails with an error, or it has the lock and has read the header of a file it opened. -/
theorem historyReadHeader_outcome {sd : Store String (List UInt8)} (faults : AppendFaults)
    {file : List UInt8} (hfile : sd (historyBuildPath slot) = some file) :
    (∃ err, historyReadHeader sd slot faults = .error err ∧ err ≠ .ok) ∨
      ((∃ found, historyReadHeader sd slot faults = .ok found) ∧ faults.lock₁ = true ∧
        (faults.openRead = true → faults.readHeader = true)) := by
  by_cases hlock : faults.lock₁ = true
  · by_cases hopen : faults.openRead = true
    · by_cases hread : faults.readHeader = true
      · simp only [historyReadHeader, hfile, hlock, hopen, hread, if_true]
        cases HistoryHeader.read file with
        | none => exact Or.inl ⟨_, rfl, by decide⟩
        | some found =>
          by_cases hmagic : found.magic = historyMagic
          · exact Or.inr ⟨⟨_, if_pos hmagic⟩, trivial, fun _ => trivial⟩
          · exact Or.inl ⟨_, if_neg hmagic, by decide⟩
      · simp only [historyReadHeader, hfile, hlock, hopen, hread, if_true]
        exact Or.inl ⟨_, rfl, by decide⟩
    · simp only [historyReadHeader, hfile, hlock, hopen, if_true]
      exact Or.inr ⟨⟨_, rfl⟩, trivial, fun h => by cases h⟩
  · simp only [historyReadHeader, hlock]
    exact Or.inl ⟨_, rfl, by decide⟩

/-- An append that does not come to its writes fails and leaves the card. -/
theorem smpHistoryAppend_not_reaches (msg : HistoryMessage)
    (h : KeepsLog H.toHistoryPrimitives dev slot header log)
    {faults : AppendFaults} (hcpu : faults.cpu ≠ some .ok) (hreaches : ¬ faults.Reaches) :
    (smpHistoryAppend H.toHistoryPrimitives dev slot msg faults).2 ≠ .ok ∧
      KeepsLog H.toHistoryPrimitives (smpHistoryAppend H.toHistoryPrimitives dev slot msg faults).1
        slot header log := by
  have hkeeps : ∀ dev' : HistoryDevice K, dev'.sd = dev.sd → dev'.masterKey = dev.masterKey →
      dev'.initialized = true → KeepsLog H.toHistoryPrimitives dev' slot header log := by
    intro dev' hsd hkey hinit
    exact ⟨hinit, h.slot_lt, h.magic, h.msgCount, by rw [hsd, hkey, h.file]⟩
  by_cases hsd : faults.sdAvailable = true
  · rcases historyReadHeader_outcome faults h.file with
      ⟨err, hread, herr⟩ | ⟨⟨⟨found, newFile⟩, hread⟩, hlock₁, hheader⟩
    · simp only [smpHistoryAppend, h.initialized, hsd, UInt8.not_le.mpr h.slot_lt, hread,
        Bool.not_true, Bool.false_eq_true, if_false]
      exact ⟨herr, h⟩
    · cases hfirst : faults.cpu with
      | some err =>
        simp only [smpHistoryAppend, h.initialized, hsd, UInt8.not_le.mpr h.slot_lt, hread,
          hfirst, Bool.not_true, Bool.false_eq_true, if_false]
        exact ⟨fun herr => hcpu (hfirst.trans (congrArg some herr)), h⟩
      | none =>
        have hwrite : (historyWritePass dev.sd slot found newFile
            (historyBuildNonce slot found.msgCount) (H.gcmEncrypt
              (historyDeriveKey H.toHistoryPrimitives dev.masterKey slot)
              (historyBuildNonce slot found.msgCount) (historyPlaintext found.version msg))
            msg.direction faults).2 ≠ .ok ∧ (historyWritePass dev.sd slot found newFile
            (historyBuildNonce slot found.msgCount) (H.gcmEncrypt
              (historyDeriveKey H.toHistoryPrimitives dev.masterKey slot)
              (historyBuildNonce slot found.msgCount) (historyPlaintext found.version msg))
            msg.direction faults).1 = dev.sd := by
          rw [historyWritePass]
          by_cases hlock : faults.lock₂ = true
          · have hopen : faults.openWrite ≠ true := fun hopen =>
              hreaches ⟨hsd, hlock₁, hheader, hfirst, hlock, hopen⟩
            rw [if_pos hlock, if_neg hopen]
            exact ⟨EspErr.noConfusion, rfl⟩
          · rw [if_neg hlock]
            exact ⟨EspErr.noConfusion, rfl⟩
        simp only [smpHistoryAppend, h.initialized, hsd, UInt8.not_le.mpr h.slot_lt, hread,
          hfirst, Bool.not_true, Bool.false_eq_true, if_false]
        exact ⟨hwrite.1, hkeeps _ hwrite.2 rfl rfl⟩
  · simp only [smpHistoryAppend, h.initialized, hsd, Bool.not_true, Bool.not_false,
      Bool.false_eq_true, if_false, if_true]
    exact ⟨by simp, h⟩

/-- An append that comes to its writes returns `ESP_OK`, whatever lands. -/
theorem smpHistoryAppend_reaches_ok (msg : HistoryMessage)
    (h : KeepsLog H.toHistoryPrimitives dev slot header log)
    {faults : AppendFaults} (hreaches : faults.Reaches) :
    (smpHistoryAppend H.toHistoryPrimitives dev slot msg faults).2 = .ok := by
  cases hopen : faults.openRead with
  | false =>
    have hread := historyReadHeader_new hreaches
      (by rw [hopen]; rfl : (if faults.openRead then dev.sd (historyBuildPath slot) else none) = none)
    rw [smpHistoryAppend_reaches H.toHistoryPrimitives h.initialized h.slot_lt msg hreaches hread rfl]
  | true =>
    have hread := historyReadHeader_file hreaches hopen h.file h.magic
    rw [smpHistoryAppend_reaches H.toHistoryPrimitives h.initialized h.slot_lt msg hreaches hread
      h.file]

/-- An append that comes to its writes is atomic when all of them land, in a file that was not
taken for absent unless it held nothing, and the counter has room. -/
theorem appendAtomic_returns_reaches (h : KeepsLog H.toHistoryPrimitives dev slot header log)
    {faults : AppendFaults} (hcpu : faults.cpu ≠ some .ok) (hreaches : faults.Reaches) :
    AppendAtomic H dev slot header log msg (.returns faults hcpu) ↔
      (faults.openRead = true ∨ log = []) ∧
        faults.Written (!faults.openRead) (sealedLen (faults.usedHeader slot header) msg) ∧
        log.length + 2 < 65536 := by
  have hok := smpHistoryAppend_reaches_ok msg h hreaches
  cases hopen : faults.openRead with
  | true =>
    have hused : faults.usedHeader slot header = header := by
      rw [AppendFaults.usedHeader, hopen, if_pos rfl]
    have hafter : faults.Written false (sealedLen header msg) →
        AppendedTo H.toHistoryPrimitives dev slot header _ msg
          (smpHistoryAppend H.toHistoryPrimitives dev slot msg faults).1 := fun hwritten =>
      (smpHistoryAppend_file H.toHistoryPrimitives h.initialized h.slot_lt hreaches hopen hwritten
        h.file h.magic).1
    rw [hused]
    constructor
    · intro hatomic
      obtain ⟨hwritten, hcounted⟩ := hatomic.written faults hcpu rfl hok
      rw [hopen, hused] at hwritten
      refine ⟨Or.inl rfl, hwritten, ?_⟩
      rw [countedMessages, (hafter hwritten).file, Option.map_some,
        HistoryHeader.decode_encode_append, header.counted_msgCount, h.msgCount,
        Option.some.injEq] at hcounted
      by_contra hfull
      have hkeeps := (hafter hwritten).keepsLog h.initialized h.slot_lt h.magic h.msgCount
        (by omega)
      refine not_appendAtomic_of_junk (.returns faults hcpu) hkeeps.initialized h.slot_lt hkeeps.magic
        (hkeeps.file.trans (congrArg some (List.append_nil _).symm)) hkeeps.msgCount
        (Or.inr ?_) hatomic
      rw [List.length_append, List.length_singleton]
      omega
    · rintro ⟨-, hwritten, hroom⟩
      have hkeeps := (hafter hwritten).keepsLog h.initialized h.slot_lt h.magic h.msgCount
        (by omega)
      refine .of_keepsLog (.returns faults hcpu) hkeeps (Or.inr rfl)
        (by rw [List.length_append, List.length_singleton]; omega) ?_
      intro faults' hcpu' hsame _
      obtain rfl : faults = faults' := AppendEnd.returns.inj hsame
      rw [hopen, hused]
      refine ⟨hwritten, ?_⟩
      rw [hkeeps.countedMessages_eq, List.length_append, List.length_singleton]
  | false =>
    have hused : faults.usedHeader slot header = .fresh slot := by
      rw [AppendFaults.usedHeader, hopen, if_neg Bool.false_ne_true]
    have hafter : faults.Written true (sealedLen (.fresh slot) msg) →
        AppendedTo H.toHistoryPrimitives dev slot (.fresh slot) (historyRecords
          H.toHistoryPrimitives (historyDeriveKey H.toHistoryPrimitives dev.masterKey slot) slot
          (HistoryHeader.fresh slot).version 0 []) msg
          (smpHistoryAppend H.toHistoryPrimitives dev slot msg faults).1 := fun hwritten =>
      (smpHistoryAppend_new H.toHistoryPrimitives h.initialized h.slot_lt hreaches hwritten
        (by rw [hopen]; rfl)).1
    rw [hused]
    constructor
    · intro hatomic
      obtain ⟨hwritten, hcounted⟩ := hatomic.written faults hcpu rfl hok
      rw [hopen, hused] at hwritten
      rw [countedMessages, (hafter hwritten).file, Option.map_some,
        HistoryHeader.decode_encode_append, HistoryHeader.counted_msgCount,
        Option.some.injEq] at hcounted
      have hlen : log.length = 0 := by
        have hone : (0 + 1) % 65536 = log.length + 1 := hcounted
        omega
      exact ⟨Or.inr (List.length_eq_zero_iff.mp hlen), hwritten, by omega⟩
    · rintro ⟨hempty, hwritten, -⟩
      obtain rfl : log = [] := hempty.resolve_left Bool.false_ne_true
      have hkeeps := (hafter hwritten).keepsLog h.initialized h.slot_lt rfl rfl (by decide)
      refine .of_keepsLog (.returns faults hcpu) hkeeps (Or.inr rfl) (by simp) ?_
      intro faults' hcpu' hsame _
      obtain rfl : faults = faults' := AppendEnd.returns.inj hsame
      rw [hopen, hused]
      exact ⟨hwritten, hkeeps.countedMessages_eq⟩

/-! ### Loss of power -/

/-- Up to a loss of power a first part of the record lands. -/
theorem AppendFaults.cut_landed (iv : Bytes 12) (sealedText : List UInt8 × Bytes 16) (bytes : ℕ) :
    (cut sealedText.1.length bytes).landed iv sealedText =
      (sealedRecord iv sealedText).take bytes := by
  rw [sealedRecord, List.take_append, List.take_append, List.take_append]
  simp only [landed, cut, List.length_append, be16_length, Vector.length_toList, Nat.reduceAdd]

/-- What a loss of power leaves of the contents of a file. -/
theorem historyAppended_cut (header mixed : HistoryHeader) (records : List UInt8) (iv : Bytes 12)
    (sealedText : List UInt8 × Bytes 16) (direction : UInt8) (bytes : ℕ)
    (hmixed : mixed.encode = (header.counted direction).encode.take
        (bytes - (30 + sealedText.1.length)) ++
      header.encode.drop (bytes - (30 + sealedText.1.length))) :
    historyAppended (header.encode ++ records) header false iv sealedText direction
        (.cut sealedText.1.length bytes) =
      mixed.encode ++ (records ++ (sealedRecord iv sealedText).take bytes) := by
  have hend : historyOpenEnd (header.encode ++ records) header false
      (.cut sealedText.1.length bytes) =
        ⟨header.encode ++ records, (header.encode ++ records).length⟩ := rfl
  have hstart : (AppendFaults.cut sealedText.1.length bytes).seekStart = true := rfl
  have hcounter : (AppendFaults.cut sealedText.1.length bytes).counterLanded =
      bytes - (30 + sealedText.1.length) := rfl
  rw [historyAppended, hend, historyWriteRecord_length, AppendFaults.cut_landed, hstart, hcounter,
    hmixed, historyRewriteHeader, OpenFile.seekSet, if_pos rfl, OpenFile.fwrite, writeAt_zero,
    List.append_assoc, List.append_assoc, List.length_take, HistoryHeader.encode_length]
  by_cases hwhole : 32 ≤ bytes - (30 + sealedText.1.length)
  · rw [Nat.min_eq_right hwhole, List.drop_left' header.encode_length,
      List.drop_eq_nil_of_le (by rw [header.encode_length]; exact hwhole), List.nil_append]
  · rw [Nat.min_eq_left (by omega), List.drop_append_of_le_length (by
      rw [header.encode_length]; omega)]

/-- The file after a loss of power: the header of the file or a mixture of it and the counted
one, the old records, and what landed of the new one. -/
theorem powerLost_file (h : KeepsLog H.toHistoryPrimitives dev slot header log)
    (hkey : dev.nvsKey = some dev.masterKey) (msg : HistoryMessage) (bytes : ℕ) :
    ∃ mixed : HistoryHeader, mixed.magic = historyMagic ∧ mixed.version = header.version ∧
      mixed.msgCount.toNat =
        (if 30 + sealedLen header msg + 6 < bytes then (log.length + 1) % 65536
          else log.length) % 256 +
        256 * ((if 30 + sealedLen header msg + 7 < bytes then (log.length + 1) % 65536
          else log.length) / 256) ∧
      ((AppendEnd.powerLost bytes).after H.toHistoryPrimitives dev slot header msg).sd
          (historyBuildPath slot) =
        some (historyFile H.toHistoryPrimitives
            (historyDeriveKey H.toHistoryPrimitives dev.masterKey slot) slot mixed log ++
          (historyRecord H.toHistoryPrimitives
            (historyDeriveKey H.toHistoryPrimitives dev.masterKey slot) slot header.version
            log.length msg).take bytes) ∧
      ((AppendEnd.powerLost bytes).after H.toHistoryPrimitives dev slot header msg).masterKey =
        dev.masterKey ∧
      ((AppendEnd.powerLost bytes).after H.toHistoryPrimitives dev slot header msg).initialized =
        true := by
  obtain ⟨mixed, hencode, hmagic, hversion, hcount⟩ := header.exists_mixed
    (header.counted msg.direction) rfl rfl (bytes - (30 + sealedLen header msg))
  rw [apply_ite (fun h : HistoryHeader => h.msgCount.toNat),
    apply_ite (fun h : HistoryHeader => h.msgCount.toNat), header.counted_msgCount,
    h.msgCount] at hcount
  have hreaches : (AppendFaults.cut (sealedLen header msg) bytes).Reaches :=
    ⟨rfl, rfl, fun _ => rfl, rfl, rfl, rfl⟩
  have hread := historyReadHeader_file hreaches rfl h.file h.magic
  have happend := smpHistoryAppend_reaches H.toHistoryPrimitives h.initialized h.slot_lt msg
    hreaches hread h.file
  have hlen : sealedLen header msg = (H.gcmEncrypt
      (historyDeriveKey H.toHistoryPrimitives dev.masterKey slot)
      (historyBuildNonce slot header.msgCount) (historyPlaintext header.version msg)).1.length :=
    (H.gcmEncrypt_length _ _ _).symm
  rw [historyFile, hlen, historyAppended_cut header mixed _ _ _ _ _ (by rw [← hlen]; exact hencode),
    ← hlen] at happend
  simp only [AppendEnd.after, happend, HistoryDevice.reboot, HistoryDevice.smpHistoryInit,
    Bool.false_eq_true, if_false, hkey]
  refine ⟨mixed, hmagic.trans h.magic, hversion, ?_, ?_, trivial, trivial⟩
  · have hlow : 6 < bytes - (30 + sealedLen header msg) ↔
        30 + sealedLen header msg + 6 < bytes := by omega
    have hhigh : 7 < bytes - (30 + sealedLen header msg) ↔
        30 + sealedLen header msg + 7 < bytes := by omega
    simp only [hcount, hlow, hhigh]
  · rw [Store.put_self, historyFile, hversion, historyRecord, List.append_assoc, ← h.msgCount,
      UInt16.ofNat_toNat]

/-- A loss of power leaves an atomic append when nothing was written, or when the record and the
counter were; a counter of which only the low byte changes must not carry. -/
theorem appendAtomic_powerLost (h : KeepsLog H.toHistoryPrimitives dev slot header log)
    (hkey : dev.nvsKey = some dev.masterKey) (msg : HistoryMessage) (bytes : ℕ) :
    AppendAtomic H dev slot header log msg (.powerLost bytes) ↔
      (AppendEnd.powerLost bytes).Spares slot header log msg := by
  obtain ⟨mixed, hmagic, hversion, hcount, hfile, hmaster, hinit⟩ :=
    powerLost_file h hkey msg bytes
  have hbound : log.length < 65536 := h.msgCount ▸ header.msgCount.toNat_lt
  have hrecord := historyRecord_length H.toHistoryPrimitives
    (historyDeriveKey H.toHistoryPrimitives dev.masterKey slot) slot header.version log.length msg
  rw [← hmaster] at hfile hrecord
  -- A counter that lags behind the bytes in the file loses the next message.
  have hlags : mixed.msgCount.toNat ≤ log.length → (mixed.msgCount.toNat < log.length ∨ 0 < bytes) →
      ¬ AppendAtomic H dev slot header log msg (.powerLost bytes) := by
    intro hle hmore
    have hsplit := historyRecords_append H.toHistoryPrimitives (historyDeriveKey
      H.toHistoryPrimitives ((AppendEnd.powerLost bytes).after H.toHistoryPrimitives dev slot header
        msg).masterKey slot) slot mixed.version 0 (log.take mixed.msgCount.toNat)
        (log.drop mixed.msgCount.toNat)
    rw [List.take_append_drop] at hsplit
    rw [historyFile, hsplit, ← List.append_assoc, List.append_assoc] at hfile
    refine not_appendAtomic_of_junk (.powerLost bytes) hinit h.slot_lt hmagic hfile
      (List.length_take_of_le hle).symm (Or.inl ?_)
    intro hnil
    obtain ⟨hrest, hlanded⟩ := List.append_eq_nil_iff.mp hnil
    rcases hmore with hlt | hpos
    · obtain ⟨later, rest, hdrop⟩ := List.exists_cons_of_length_pos
        (by rw [List.length_drop]; omega : 0 < (log.drop mixed.msgCount.toNat).length)
      rw [hdrop, historyRecords] at hrest
      have hlen := congrArg List.length (List.append_eq_nil_iff.mp hrest).1
      rw [historyRecord_length, List.length_nil] at hlen
      omega
    · have hlen := congrArg List.length hlanded
      rw [List.length_take, hrecord, List.length_nil] at hlen
      omega
  -- A counter that went up counts a record that is whole.
  have hcounts : mixed.msgCount.toNat = log.length + 1 → 30 + sealedLen header msg ≤ bytes →
      (AppendAtomic H dev slot header log msg (.powerLost bytes) ↔ log.length + 2 < 65536) := by
    intro hone hwhole
    have hkeeps : KeepsLog H.toHistoryPrimitives ((AppendEnd.powerLost bytes).after
        H.toHistoryPrimitives dev slot header msg) slot mixed (log ++ [msg]) := by
      refine ⟨hinit, h.slot_lt, hmagic, by rw [hone, List.length_append, List.length_singleton], ?_⟩
      rw [hfile, List.take_of_length_le (by rw [hrecord]; exact hwhole)]
      simp only [historyFile, historyRecords_append, historyRecords, Nat.zero_add, List.append_nil,
        hversion, List.append_assoc]
    constructor
    · intro hatomic
      by_contra hfull
      have hcounter := mixed.msgCount.toNat_lt
      refine not_appendAtomic_of_junk (.powerLost bytes) hinit h.slot_lt hmagic
        (hkeeps.file.trans (congrArg some (List.append_nil _).symm)) hkeeps.msgCount
        (Or.inr ?_) hatomic
      rw [List.length_append, List.length_singleton]
      omega
    · intro hroom
      exact .of_keepsLog _ hkeeps (Or.inr rfl)
        (by rw [List.length_append, List.length_singleton]; omega)
        (fun _ _ hsame => by cases hsame)
  rw [AppendEnd.Spares]
  by_cases hnone : bytes = 0
  · subst hnone
    rw [List.take_zero, List.append_nil] at hfile
    have hsame : mixed.msgCount.toNat = log.length := by
      rw [hcount, if_neg (by omega), if_neg (by omega)]
      omega
    have hkeeps : KeepsLog H.toHistoryPrimitives ((AppendEnd.powerLost 0).after
        H.toHistoryPrimitives dev slot header msg) slot mixed log :=
      ⟨hinit, h.slot_lt, hmagic, hsame, hfile⟩
    constructor
    · intro hatomic
      by_contra hfull
      exact not_appendAtomic_of_junk (.powerLost 0) hinit h.slot_lt hmagic
        (hkeeps.file.trans (congrArg some (List.append_nil _).symm)) hsame
        (Or.inr (by omega)) hatomic
    · intro hroom
      exact .of_keepsLog _ hkeeps (Or.inl rfl) (by omega) (fun _ _ hsame => by cases hsame)
  · by_cases hlast : 30 + sealedLen header msg + (if log.length % 256 = 255 then 8 else 7) ≤ bytes ∧
        log.length ≠ 65535
    · have hone : mixed.msgCount.toNat = log.length + 1 := by
        rw [hcount]
        split_ifs at hlast ⊢ <;> omega
      rw [hcounts hone (by omega)]
      omega
    · have hle : mixed.msgCount.toNat ≤ log.length := by
        rw [hcount]
        split_ifs at hlast ⊢ <;> omega
      constructor
      · intro hatomic
        exact absurd hatomic (hlags hle (Or.inr (by omega)))
      · intro hspares
        omega

end Ends

/-- When an append to a well-formed file is atomic. It is not when it comes to its writes and
one of them is short or goes to a wrong place, when the file of earlier messages could not be
opened for reading, or when power is lost between the first byte of the record and the counter
of the header. -/
theorem append_atomic_iff (H : HistoryOpening K) {dev : HistoryDevice K} {slot : UInt8}
    {header : HistoryHeader} {log : List HistoryMessage}
    (h : KeepsLog H.toHistoryPrimitives dev slot header log)
    (hkey : dev.nvsKey = some dev.masterKey) (msg : HistoryMessage) (ending : AppendEnd) :
    AppendAtomic H dev slot header log msg ending ↔ ending.Spares slot header log msg := by
  cases ending with
  | powerLost bytes => exact appendAtomic_powerLost h hkey msg bytes
  | returns faults hcpu =>
    rw [AppendEnd.Spares]
    by_cases hreaches : faults.Reaches
    · rw [appendAtomic_returns_reaches h hcpu hreaches]
      constructor
      · exact fun hall => Or.inr ⟨hreaches, hall⟩
      · rintro (⟨hnot, -⟩ | ⟨-, hall⟩)
        · exact absurd hreaches hnot
        · exact hall
    · have hbound : log.length < 65536 := h.msgCount ▸ header.msgCount.toNat_lt
      obtain ⟨herr, hkeeps⟩ := smpHistoryAppend_not_reaches msg h hcpu hreaches
      constructor
      · intro hatomic
        refine Or.inl ⟨hreaches, ?_⟩
        by_contra hfull
        exact not_appendAtomic_of_junk (.returns faults hcpu) hkeeps.initialized h.slot_lt h.magic
          (hkeeps.file.trans (congrArg some (List.append_nil _).symm)) h.msgCount
          (Or.inr (by omega)) hatomic
      · rintro (⟨-, hroom⟩ | ⟨hall, -⟩)
        · refine .of_keepsLog (.returns faults hcpu) hkeeps (Or.inl rfl) hroom ?_
          intro faults' hcpu' hsame hok
          obtain rfl : faults = faults' := AppendEnd.returns.inj hsame
          exact absurd hok herr
        · exact absurd hall hreaches

/-- A device whose slot 0 holds one message. -/
def oneMessageDevice : HistoryDevice (List UInt8 × List UInt8) :=
  (smpHistoryAppend symbolicHistory
    { HistoryDevice.blank with initialized := true, nvsKey := some (zeroBytes 32) } 0
    (oneByteMessage 65) .none).1

/-- Its file is well formed. -/
theorem oneMessageDevice_keepsLog : KeepsLog symbolicOpening.toHistoryPrimitives oneMessageDevice 0
    ((HistoryHeader.fresh 0).counted 0) [oneByteMessage 65] := by
  have hclean := AppendFaults.none_clean 65
  exact (append_makes_file (H := symbolicOpening) rfl (by decide) rfl hclean.reaches
    (hclean.written_plaintext true _)).1

/-- Appending without faults is atomic. -/
theorem append_atomic_iff_none :
    AppendAtomic symbolicOpening oneMessageDevice 0 ((HistoryHeader.fresh 0).counted 0)
      [oneByteMessage 65] (oneByteMessage 66) (.returns .none (by decide)) :=
  (append_atomic_iff symbolicOpening oneMessageDevice_keepsLog rfl _ _).mpr
    (Or.inr ⟨(AppendFaults.none_clean 66).reaches, Or.inl rfl,
      (AppendFaults.none_clean 66).written_plaintext _ _, by decide⟩)

/-- When no byte of the tag reaches the card, the append reports success all the same. -/
theorem append_short_tag_not_atomic :
    KeepsLog symbolicHistory oneMessageDevice 0 ((HistoryHeader.fresh 0).counted 0)
        [oneByteMessage 65] ∧
      ¬ AppendAtomic symbolicOpening oneMessageDevice 0 ((HistoryHeader.fresh 0).counted 0)
        [oneByteMessage 65] (oneByteMessage 66)
        (.returns { AppendFaults.none with tagLanded := 0 } (by decide)) := by
  refine ⟨oneMessageDevice_keepsLog, ?_⟩
  intro hatomic
  have hkeeps : KeepsLog symbolicOpening.toHistoryPrimitives oneMessageDevice 0
    ((HistoryHeader.fresh 0).counted 0) [oneByteMessage 65] := oneMessageDevice_keepsLog
  have hreaches : { AppendFaults.none with tagLanded := 0 }.Reaches :=
    ⟨rfl, rfl, fun _ => rfl, rfl, rfl, rfl⟩
  have hok := smpHistoryAppend_reaches_ok (oneByteMessage 66) hkeeps hreaches
  exact absurd (hatomic.written _ _ rfl hok).1.tag (by decide)

end SimpleGo
