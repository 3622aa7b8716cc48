import Mathlib.Data.List.DropRight
import SimpleGo.History.Load

/-!
# What a load finds in a well-formed file

A well-formed file is a header and the records of a list of messages, numbered from zero.
The walk of `smp_history_load_recent` is followed through such a file: the length fields
lead from record to record, each record decrypts to its message, and bytes behind the
counted records play no part.
-/

namespace SimpleGo

open Lib

variable {K : Type}

/-- The bytes of a record: its length, nonce, ciphertext and tag. -/
def sealedRecord (iv : Bytes 12) (sealedText : List UInt8 × Bytes 16) : List UInt8 :=
  be16 (2 + 12 + sealedText.1.length + 16) ++ iv.toList ++ sealedText.1 ++ sealedText.2.toList

/-- The record of message number `index`. -/
def historyRecord (H : HistoryPrimitives K) (key : K) (slot version : UInt8) (index : ℕ)
    (msg : HistoryMessage) : List UInt8 :=
  let iv := historyBuildNonce slot (UInt16.ofNat index)
  sealedRecord iv (H.gcmEncrypt key iv (historyPlaintext version msg))

/-- The records of a list of messages, the first with the given number. -/
def historyRecords (H : HistoryPrimitives K) (key : K) (slot version : UInt8) :
    (index : ℕ) → (log : List HistoryMessage) → List UInt8
  | _, [] => []
  | index, msg :: log =>
    historyRecord H key slot version index msg ++ historyRecords H key slot version (index + 1) log

/-- The file of a list of messages. -/
def historyFile (H : HistoryPrimitives K) (key : K) (slot : UInt8) (header : HistoryHeader)
    (log : List HistoryMessage) : List UInt8 :=
  header.encode ++ historyRecords H key slot header.version 0 log

/-- A message as it is shown again: its text cut, its status from the record and the mark. -/
def HistoryMessage.shown (header : HistoryHeader) (msgIdx : UInt16) (msg : HistoryMessage) :
    HistoryMessage where
  direction := msg.direction
  deliveryStatus := historyShownStatus msg.direction
    (if header.version ≥ 2 then msg.deliveryStatus else 0) msgIdx header.lastDeliveredIdx
  timestamp := msg.timestamp
  textLen := UInt16.ofNat msg.storedLen
  text := fun i => if i < msg.storedLen then msg.text i else 0

/-- A list of messages as it is shown again, the first with the given number. -/
def historyShown (header : HistoryHeader) : (index : ℕ) → (log : List HistoryMessage) →
    List HistoryMessage
  | _, [] => []
  | index, msg :: log =>
    msg.shown header (UInt16.ofNat index) :: historyShown header (index + 1) log

/-! ### Headers -/

/-- The header is read back from the start of a file. -/
theorem HistoryHeader.decode_encode_append (header : HistoryHeader) (rest : List UInt8) :
    decode (header.encode ++ rest) = header := by
  have hmem : Holds (fun i => (header.encode ++ rest).getD i 0) 0 header.encode :=
    (holds_append.mp (holds_memOf (header.encode ++ rest) fun _ => 0)).1
  simp only [encode, le16, holds_append, holds_cons, List.append_assoc, List.cons_append,
    List.nil_append, Vector.length_toList, Nat.zero_add, Nat.reduceAdd] at hmem
  obtain ⟨hmagic, hversion, hslot, hcount₀, hcount₁, hunread₀, hunread₁, hmark₀, hmark₁,
    hreserved⟩ := hmem
  have hmagic' := windowBytes_of_holds hmagic
  have hreserved' := windowBytes_of_holds hreserved
  simp only [windowBytes, Nat.zero_add] at hmagic' hreserved'
  cases header
  simp_all only [decode, word, encode, le16, List.append_assoc, List.cons_append,
    List.nil_append, ofNat_le16]

/-- A file that starts with a header has it read. -/
theorem HistoryHeader.read_encode_append (header : HistoryHeader) (rest : List UInt8) :
    read (header.encode ++ rest) = some header := by
  rw [read_eq_some, decode_encode_append]
  refine ⟨?_, rfl⟩
  rw [List.length_append, encode_length, historyHeaderSize]
  omega

/-! ### Lengths -/

/-- At most 4096 bytes of a text are stored. -/
theorem HistoryMessage.storedLen_le (msg : HistoryMessage) : msg.storedLen ≤ 4096 :=
  Nat.min_le_right _ _

/-- A payload has eleven or twelve bytes before the text. -/
theorem historyPlaintext_length (version : UInt8) (msg : HistoryMessage) :
    (historyPlaintext version msg).length =
      (if version ≥ 2 then 12 else 11) + msg.storedLen := by
  simp only [historyPlaintext, be64, List.length_append, List.length_cons, List.length_nil,
    List.length_map, be16_length, window_length]
  split <;> simp

/-- The length field counts the whole record. -/
theorem historyRecord_length (H : HistoryPrimitives K) (key : K) (slot version : UInt8) (index : ℕ)
    (msg : HistoryMessage) :
    (historyRecord H key slot version index msg).length =
      30 + (historyPlaintext version msg).length := by
  simp only [historyRecord, sealedRecord, List.length_append, be16_length, Vector.length_toList,
    H.gcmEncrypt_length]
  omega

/-- A record has between 41 and 4138 bytes. -/
theorem historyRecord_length_bounds (H : HistoryPrimitives K) (key : K) (slot version : UInt8)
    (index : ℕ) (msg : HistoryMessage) :
    41 ≤ (historyRecord H key slot version index msg).length ∧
      (historyRecord H key slot version index msg).length ≤ 4138 := by
  have htext := msg.storedLen_le
  rw [historyRecord_length, historyPlaintext_length]
  split <;> omega

/-- A record is its length field and the rest. -/
theorem historyRecord_eq_be16 (H : HistoryPrimitives K) (key : K) (slot version : UInt8) (index : ℕ)
    (msg : HistoryMessage) : ∃ rest, historyRecord H key slot version index msg =
      be16 (historyRecord H key slot version index msg).length ++ rest := by
  refine ⟨(historyBuildNonce slot (UInt16.ofNat index)).toList ++
    ((H.gcmEncrypt key (historyBuildNonce slot (UInt16.ofNat index))
      (historyPlaintext version msg)).1 ++ (H.gcmEncrypt key
        (historyBuildNonce slot (UInt16.ofNat index)) (historyPlaintext version msg)).2.toList), ?_⟩
  have hlen : 2 + 12 + (H.gcmEncrypt key (historyBuildNonce slot (UInt16.ofNat index))
      (historyPlaintext version msg)).1.length + 16 =
        30 + (historyPlaintext version msg).length := by
    rw [H.gcmEncrypt_length]
    omega
  rw [historyRecord_length]
  simp only [historyRecord, sealedRecord, hlen, List.append_assoc]

/-- The records of a longer log, in two parts. -/
theorem historyRecords_append (H : HistoryPrimitives K) (key : K) (slot version : UInt8)
    (index : ℕ) (log log' : List HistoryMessage) :
    historyRecords H key slot version index (log ++ log') =
      historyRecords H key slot version index log ++
        historyRecords H key slot version (index + log.length) log' := by
  induction log generalizing index with
  | nil => simp [historyRecords]
  | cons msg log ih =>
    simp only [List.cons_append, historyRecords, ih, List.append_assoc, List.length_cons]
    congr 3
    omega

/-- The records of a list of messages are not longer than the buffer of a load. -/
theorem historyRecords_length_le (H : HistoryPrimitives K) (key : K) (slot version : UInt8)
    (index : ℕ) (log : List HistoryMessage) :
    (historyRecords H key slot version index log).length ≤ log.length * 16041 := by
  induction log generalizing index with
  | nil => simp [historyRecords]
  | cons msg log ih =>
    have hrecord := (historyRecord_length_bounds H key slot version index msg).2
    have hrest := ih (index + 1)
    rw [historyRecords, List.length_append, List.length_cons]
    omega

/-- What is shown of a longer log, in two parts. -/
theorem historyShown_append (header : HistoryHeader) (index : ℕ) (log log' : List HistoryMessage) :
    historyShown header index (log ++ log') =
      historyShown header index log ++ historyShown header (index + log.length) log' := by
  induction log generalizing index with
  | nil => simp [historyShown]
  | cons msg log ih =>
    simp only [List.cons_append, historyShown, ih, List.length_cons]
    congr 3
    omega

@[simp] theorem historyShown_length (header : HistoryHeader) (index : ℕ)
    (log : List HistoryMessage) : (historyShown header index log).length = log.length := by
  induction log generalizing index with
  | nil => rfl
  | cons msg log ih => simp [historyShown, ih]

/-- The last messages are shown with the numbers they have in the whole list. -/
theorem historyShown_drop (header : HistoryHeader) (index n : ℕ) (log : List HistoryMessage)
    (hn : n ≤ log.length) :
    historyShown header (index + n) (log.drop n) = (historyShown header index log).drop n := by
  have hsplit := historyShown_append header index (log.take n) (log.drop n)
  rw [List.take_append_drop, List.length_take_of_le hn] at hsplit
  rw [hsplit, List.drop_left' (by rw [historyShown_length, List.length_take_of_le hn])]

/-! ### The walk -/

/-- A length field is read at its position. -/
theorem historyRecordLen_be16 (pre rest : List UInt8) {n : ℕ} (hn : n < 65536) :
    historyRecordLen (pre ++ (be16 n ++ rest)) pre.length = some n := by
  have hhigh : (pre ++ (be16 n ++ rest))[pre.length]? = some (UInt8.ofNat (n / 256)) := by
    rw [List.getElem?_append_right (Nat.le_refl _), Nat.sub_self]
    rfl
  have hlow : (pre ++ (be16 n ++ rest))[pre.length + 1]? = some (UInt8.ofNat n) := by
    rw [List.getElem?_append_right (by omega), Nat.add_sub_cancel_left]
    rfl
  simp only [historyRecordLen, hhigh, hlow, toNat_ofNat_mod, Option.some.injEq]
  omega

/-- Nothing is read at the end of a file. -/
theorem historyRecordLen_end (file : List UInt8) : historyRecordLen file file.length = none := by
  rw [historyRecordLen, List.getElem?_eq_none (Nat.le_refl _)]

/-- The length of a record is read at its start. -/
theorem historyRecordLen_record (H : HistoryPrimitives K) (key : K) (slot version : UInt8)
    (index : ℕ) (msg : HistoryMessage) (pre post : List UInt8) :
    historyRecordLen (pre ++ (historyRecord H key slot version index msg ++ post)) pre.length =
      some (historyRecord H key slot version index msg).length := by
  have hbound := (historyRecord_length_bounds H key slot version index msg).2
  obtain ⟨rest, hrest⟩ := historyRecord_eq_be16 H key slot version index msg
  have hfile : pre ++ (historyRecord H key slot version index msg ++ post) =
      pre ++ (be16 (historyRecord H key slot version index msg).length ++ (rest ++ post)) := by
    conv_lhs => rw [hrest]
    rw [List.append_assoc]
  rw [hfile]
  exact historyRecordLen_be16 _ _ (by omega)

/-- Records are skipped one part after the other. -/
theorem historySkip_add (file : List UInt8) (a b pos : ℕ) :
    historySkip file (a + b) pos = (historySkip file a pos).bind (historySkip file b) := by
  induction a generalizing pos with
  | zero => simp [historySkip]
  | succ a ih =>
    rw [Nat.succ_add, historySkip, historySkip]
    cases historyRecordLen file pos with
    | none => rfl
    | some recLen => exact ih _

/-- Skipping the records of a list of messages leads to their end. -/
theorem historySkip_records (H : HistoryPrimitives K) (key : K) (slot version : UInt8) (index : ℕ)
    (log : List HistoryMessage) (pre post : List UInt8) :
    historySkip (pre ++ (historyRecords H key slot version index log ++ post)) log.length
      pre.length = some (pre.length + (historyRecords H key slot version index log).length) := by
  induction log generalizing index pre with
  | nil => simp [historySkip, historyRecords]
  | cons msg log ih =>
    have hnext := ih (index + 1) (pre ++ historyRecord H key slot version index msg)
    simp only [List.append_assoc, List.length_append] at hnext
    simp only [historyRecords, List.length_cons, historySkip, List.append_assoc,
      historyRecordLen_record, List.length_append, hnext]
    rw [Nat.add_assoc]

/-- Skipping more records than there are fails. -/
theorem historySkip_beyond (H : HistoryPrimitives K) (key : K) (slot version : UInt8) (index : ℕ)
    (log : List HistoryMessage) (pre : List UInt8) (more : ℕ) :
    historySkip (pre ++ historyRecords H key slot version index log) (log.length + (more + 1))
      pre.length = none := by
  have hskip := historySkip_records H key slot version index log pre []
  rw [List.append_nil] at hskip
  rw [historySkip_add, hskip, ← List.length_append]
  change historySkip _ (more + 1) _ = none
  rw [historySkip, historyRecordLen_end]

/-- The offsets of the records of a list of messages. -/
def historyOffsets (H : HistoryPrimitives K) (key : K) (slot version : UInt8) :
    (index : ℕ) → (log : List HistoryMessage) → (used : ℕ) → List ℕ
  | _, [], _ => []
  | index, msg :: log, used =>
    used :: historyOffsets H key slot version (index + 1) log
      (used + (historyRecord H key slot version index msg).length)

/-- Reading the records of a list of messages into a buffer that is large enough. -/
theorem historyReadRecords_records (H : HistoryPrimitives K) (key : K) (slot version : UInt8)
    (index : ℕ) (log : List HistoryMessage) (pre post : List UInt8) {start : ℕ} (bufAlloc used : ℕ)
    (hpos : start + used = pre.length)
    (hfits : used + (historyRecords H key slot version index log).length ≤ bufAlloc)
    (halloc : bufAlloc < 4294967296) :
    historyReadRecords (pre ++ (historyRecords H key slot version index log ++ post)) start
        bufAlloc log.length used =
      (historyOffsets H key slot version index log used,
        used + (historyRecords H key slot version index log).length) := by
  induction log generalizing index pre used with
  | nil => simp [historyReadRecords, historyOffsets, historyRecords]
  | cons msg log ih =>
    obtain ⟨hmin, hmax⟩ := historyRecord_length_bounds H key slot version index msg
    have hnext := ih (index + 1) (pre ++ historyRecord H key slot version index msg)
      (used + (historyRecord H key slot version index msg).length)
      (by rw [List.length_append]; omega)
      (by rw [historyRecords, List.length_append] at hfits; omega)
    simp only [List.append_assoc] at hnext
    rw [historyRecords, List.length_append] at hfits
    have hdata : (4294967294 + (historyRecord H key slot version index msg).length) % 4294967296 =
        (historyRecord H key slot version index msg).length - 2 := by omega
    have hstep : used + 2 + ((historyRecord H key slot version index msg).length - 2) =
        used + (historyRecord H key slot version index msg).length := by omega
    have hroom : ¬ (used + (historyRecord H key slot version index msg).length) % 4294967296 >
        bufAlloc := by omega
    have hwhole : ¬ (pre ++ (historyRecord H key slot version index msg ++
        (historyRecords H key slot version (index + 1) log ++ post))).length <
          start + used + 2 + ((historyRecord H key slot version index msg).length - 2) := by
      simp only [List.length_append]
      omega
    simp only [historyRecords, List.length_cons, historyReadRecords, List.append_assoc, hpos,
      historyRecordLen_record, hdata, hstep, hroom, if_false]
    rw [hpos] at hwhole
    rw [if_neg hwhole, hnext, historyOffsets, List.length_append, Nat.add_assoc]

/-! ### Decryption -/

/-- The bytes of a word give the word. -/
theorem read64_of_holds {m : Mem} {p : ℕ} {w : UInt64} (h : Holds m p (be64 w)) :
    read64 m p = w := by
  simp only [be64, List.map_cons, List.map_nil, holds_cons, holds_nil, and_true, Nat.add_assoc,
    Nat.reduceAdd] at h
  obtain ⟨h₀, h₁, h₂, h₃, h₄, h₅, h₆, h₇⟩ := h
  have hw := w.toNat_lt
  have hsum : w.toNat / 2 ^ 56 % 256 * 2 ^ 56 + w.toNat / 2 ^ 48 % 256 * 2 ^ 48 +
      w.toNat / 2 ^ 40 % 256 * 2 ^ 40 + w.toNat / 2 ^ 32 % 256 * 2 ^ 32 +
      w.toNat / 2 ^ 24 % 256 * 2 ^ 24 + w.toNat / 2 ^ 16 % 256 * 2 ^ 16 +
      w.toNat / 2 ^ 8 % 256 * 2 ^ 8 + w.toNat / 2 ^ 0 % 256 = w.toNat := by omega
  simp only [read64, h₀, h₁, h₂, h₃, h₄, h₅, h₆, h₇, toNat_ofNat_mod, hsum, UInt64.ofNat_toNat]

/-- The parser gives the message back. -/
theorem historyParse_historyPlaintext (header : HistoryHeader) (msgIdx : UInt16)
    (msg : HistoryMessage) {plaintext : Mem}
    (h : Holds plaintext 0 (historyPlaintext header.version msg)) :
    historyParse header msgIdx plaintext = msg.shown header msgIdx := by
  have hstored := msg.storedLen_le
  -- Past the status byte the two versions agree, at offset `p`.
  have hparse : ∀ p, Holds plaintext p (be64 msg.timestamp.toUInt64 ++ be16 msg.storedLen ++
      window msg.text 0 msg.storedLen) →
      (read64 plaintext p).toInt64 = msg.timestamp ∧
        min (read16 plaintext (p + 8)) historyMaxText = msg.storedLen ∧
        (fun i => if i < msg.storedLen then plaintext (p + 10 + i) else 0) =
          fun i => if i < msg.storedLen then msg.text i else 0 := by
    intro p hp
    simp only [holds_append, List.append_assoc] at hp
    obtain ⟨hstamp, hlen, htext⟩ := hp
    have hlen' : Holds plaintext (p + 8) (be16 msg.storedLen) := hlen
    have htext' : Holds plaintext (p + 10) (window msg.text 0 msg.storedLen) := htext
    refine ⟨?_, ?_, ?_⟩
    · rw [read64_of_holds hstamp]
      rfl
    · rw [read16_of_holds hlen' (by omega)]
      exact Nat.min_eq_left hstored
    · funext i
      by_cases hi : i < msg.storedLen
      · have hbyte := htext'.getElem i (by simpa using hi)
        simpa [hi, window] using hbyte
      · rw [if_neg hi, if_neg hi]
  by_cases hversion : header.version ≥ 2
  · simp only [historyPlaintext, hversion, if_true, List.cons_append, List.nil_append,
      holds_cons, Nat.zero_add, Nat.reduceAdd] at h
    obtain ⟨hdirection, hstatus, hrest⟩ := h
    obtain ⟨hstamp, hlen, htext⟩ := hparse 2 hrest
    simp only [historyParse, HistoryMessage.shown, hversion, if_true, hdirection, hstatus, hstamp,
      hlen, htext]
  · simp only [historyPlaintext, hversion, if_false, List.cons_append, List.nil_append,
      holds_cons, Nat.zero_add] at h
    obtain ⟨hdirection, hrest⟩ := h
    obtain ⟨hstamp, hlen, htext⟩ := hparse 1 hrest
    simp only [historyParse, HistoryMessage.shown, hversion, if_false, hdirection, hstamp, hlen,
      htext]

/-- A record in the buffer opens to its message. -/
theorem historyOpenRecord_record (H : HistoryOpening K) (key : K) (slot : UInt8)
    (header : HistoryHeader) (index : ℕ) (msg : HistoryMessage) {rawBuf : Mem} {off : ℕ}
    (h : Holds rawBuf off
      (historyRecord H.toHistoryPrimitives key slot header.version index msg)) :
    historyOpenRecord H key header rawBuf (UInt16.ofNat index) off =
      some (msg.shown header (UInt16.ofNat index)) := by
  have htext := msg.storedLen_le
  have hplain : (historyPlaintext header.version msg).length ≤ 4108 := by
    rw [historyPlaintext_length]
    split <;> omega
  simp only [historyRecord, sealedRecord, holds_append, H.gcmEncrypt_length, be16_length,
    List.length_append,
    Vector.length_toList, ← Nat.add_assoc] at h
  obtain ⟨⟨⟨hlen, hiv⟩, hciphertext⟩, htag⟩ := h
  have hct : (4294967266 + read16 rawBuf off) % 4294967296 =
      (historyPlaintext header.version msg).length := by
    rw [read16_of_holds hlen (by omega)]
    omega
  have hfits : ¬ (historyPlaintext header.version msg).length > 11 + historyMaxPayload := by
    rw [historyMaxPayload]
    omega
  have hiv' := windowBytes_of_holds hiv
  have hciphertext' : window rawBuf (off + 14) (historyPlaintext header.version msg).length = _ :=
    Holds.window_eq hciphertext (H.gcmEncrypt_length _ _ _).symm
  have htag' := windowBytes_of_holds htag
  rw [Nat.add_assoc off 2 12] at htag'
  simp only [historyOpenRecord, hct, hfits, if_false, hiv', hciphertext', htag',
    H.gcmDecrypt_gcmEncrypt, Option.some.injEq]
  exact historyParse_historyPlaintext header _ msg (holds_memOf _ _)

/-- The records of a list of messages in the buffer open to the messages. -/
theorem historyOpenRecords_records (H : HistoryOpening K) (key : K) (slot : UInt8)
    (header : HistoryHeader) (index : ℕ) (log : List HistoryMessage) {rawBuf : Mem} {used : ℕ}
    (h : Holds rawBuf used
      (historyRecords H.toHistoryPrimitives key slot header.version index log)) :
    historyOpenRecords H key header rawBuf index
        (historyOffsets H.toHistoryPrimitives key slot header.version index log used) =
      historyShown header index log := by
  induction log generalizing index used with
  | nil => rfl
  | cons msg log ih =>
    obtain ⟨hrecord, hrest⟩ := holds_append.mp h
    rw [historyOffsets, historyOpenRecords, historyOpenRecord_record H key slot header index msg
      hrecord, historyShown, ih (index + 1) hrest]

/-! ### Loads -/

/-- Nothing goes wrong in a load of a file of the given size. -/
structure LoadFaults.Clean (faults : LoadFaults) (size : ℕ) : Prop where
  sdAvailable : faults.sdAvailable = true
  deriveKey : faults.deriveKey = none
  lock : faults.lock = true
  openRead : faults.openRead = true
  readable : size ≤ faults.readable
  alloc : faults.alloc = true

/-- A load of a readable file gets to its header. -/
theorem smpHistoryLoadRecent_of_file (H : HistoryOpening K) {dev : HistoryDevice K} {slot : UInt8}
    (hinit : dev.initialized = true) (hslot : slot < 128) {header : HistoryHeader}
    {file rest : List UInt8} (hfile : dev.sd (historyBuildPath slot) = some file)
    (hheader : file = header.encode ++ rest) {faults : LoadFaults}
    (hclean : faults.Clean file.length) (count : ℤ) (heap : Mem) :
    smpHistoryLoadRecent H dev slot count faults heap =
      if (header.msgCount.toNat : ℤ) = 0 then (.ok, [])
      else historyLoadFrom H (historyDeriveKey H.toHistoryPrimitives dev.masterKey slot) header file
        (historyStartIdx header.msgCount.toNat count)
        (min (header.msgCount.toNat - historyStartIdx header.msgCount.toNat count) count) heap := by
  have hread : HistoryHeader.read file = some header := by
    rw [hheader, HistoryHeader.read_encode_append]
  simp only [smpHistoryLoadRecent, hinit, hclean.sdAvailable, UInt8.not_le.mpr hslot,
    hclean.deriveKey, hclean.lock, hclean.openRead, hclean.alloc, if_true, hfile,
    List.take_of_length_le hclean.readable, hread, Bool.not_true, Bool.false_eq_true, if_false]

/-- The buffer holds the part of the file that was read into it. -/
theorem holds_rawBuf {file : List UInt8} {start used : ℕ} {l : List UInt8} (heap : Mem)
    (hfile : Holds (fun i => file.getD i 0) start l) (hused : used = l.length) :
    Holds (fun i => if i < used then file.getD (start + i) 0 else heap i) 0 l := by
  apply List.ext_getElem (window_length _ _ _)
  intro i hi hl
  have hbyte := hfile.getElem i hl
  simp only [window, List.getElem_map, List.getElem_range, Nat.zero_add]
  rw [if_pos (by omega)]
  exact hbyte

/-- From the records of a list of messages the later ones are loaded, with their numbers. -/
theorem historyLoadFrom_records (H : HistoryOpening K) (key : K) (slot : UInt8)
    (header : HistoryHeader) (log late : List HistoryMessage) (junk : List UInt8)
    (hlate : late.length ≤ historyMaxLoad) (heap : Mem) :
    historyLoadFrom H key header
        (historyFile H.toHistoryPrimitives key slot header (log ++ late) ++ junk) log.length
        late.length heap = (.ok, historyShown header log.length late) := by
  have hmax : late.length ≤ 20 := hlate
  have hsplit := historyRecords_append H.toHistoryPrimitives key slot header.version 0 log late
  have hskip := historySkip_records H.toHistoryPrimitives key slot header.version 0 log
    header.encode (historyRecords H.toHistoryPrimitives key slot header.version log.length late ++
      junk)
  have hrecords := historyRecords_length_le H.toHistoryPrimitives key slot header.version
    log.length late
  have hfound := historyReadRecords_records H.toHistoryPrimitives key slot header.version
    log.length late
    (header.encode ++ historyRecords H.toHistoryPrimitives key slot header.version 0 log) junk
    (late.length * 16041) 0 rfl (by rw [Nat.zero_add]; exact hrecords) (by omega)
  have halloc : ((late.length : ℤ) * 16041 % 4294967296).toNat = late.length * 16041 := by omega
  have hread : min late.length historyMaxLoad = late.length := Nat.min_eq_left hlate
  rw [Nat.zero_add] at hsplit
  rw [List.append_assoc, List.length_append, HistoryHeader.encode_length, Nat.zero_add] at hfound
  rw [HistoryHeader.encode_length] at hskip
  simp only [historyLoadFrom, historyFile, halloc, Int.toNat_natCast, hread, hsplit,
    List.append_assoc, show historyHeaderSize = 32 from rfl, hskip, hfound, Prod.mk.injEq, true_and]
  apply historyOpenRecords_records
  apply holds_rawBuf
  · have hheld := holds_memOf (header.encode ++ (historyRecords H.toHistoryPrimitives key slot
      header.version 0 log ++ (historyRecords H.toHistoryPrimitives key slot header.version
        log.length late ++ junk))) fun _ => 0
    simp only [holds_append, HistoryHeader.encode_length, Nat.zero_add] at hheld
    exact hheld.2.2.1
  · rfl

/-- A load returns the last of the counted messages, whatever lies behind them. -/
theorem smpHistoryLoadRecent_records (H : HistoryOpening K) {dev : HistoryDevice K} {slot : UInt8}
    (hinit : dev.initialized = true) (hslot : slot < 128) {header : HistoryHeader}
    {log : List HistoryMessage} {file junk : List UInt8}
    (hfile : dev.sd (historyBuildPath slot) = some file)
    (heq : file = historyFile H.toHistoryPrimitives
      (historyDeriveKey H.toHistoryPrimitives dev.masterKey slot) slot header log ++ junk)
    (hcount : header.msgCount.toNat = log.length) {faults : LoadFaults}
    (hclean : faults.Clean file.length) {count : ℕ} (hmax : count ≤ historyMaxLoad) (heap : Mem) :
    smpHistoryLoadRecent H dev slot count faults heap =
      (.ok, (historyShown header 0 log).rtake count) := by
  have hmax' : count ≤ 20 := hmax
  have hheader : file = header.encode ++ (historyRecords H.toHistoryPrimitives
      (historyDeriveKey H.toHistoryPrimitives dev.masterKey slot) slot header.version 0 log ++
        junk) := by
    rw [heq, historyFile, List.append_assoc]
  rw [smpHistoryLoadRecent_of_file H hinit hslot hfile hheader hclean, hcount, List.rtake,
    historyShown_length]
  by_cases hempty : log.length = 0
  · rw [List.length_eq_zero_iff.mp hempty, if_pos (by simp), List.length_nil, Nat.zero_sub,
      historyShown, List.drop_nil]
  · have hsplit := List.take_append_drop (log.length - count) log
    have hearly : (log.take (log.length - count)).length = log.length - count :=
      List.length_take_of_le (by omega)
    have hlate : (log.drop (log.length - count)).length = min log.length count := by
      rw [List.length_drop]
      omega
    have hstart : historyStartIdx log.length count = ((log.length - count : ℕ) : ℤ) := by
      rw [historyStartIdx]
      split <;> omega
    have hload : min ((log.length : ℤ) - ((log.length - count : ℕ) : ℤ)) count =
        (min log.length count : ℕ) := by omega
    have hfrom := historyLoadFrom_records H
      (historyDeriveKey H.toHistoryPrimitives dev.masterKey slot) slot header
      (log.take (log.length - count)) (log.drop (log.length - count)) junk
      (by rw [hlate]; exact Nat.le_trans (Nat.min_le_right _ _) hmax) heap
    rw [hsplit, hearly, hlate, ← heq] at hfrom
    have hshown := historyShown_drop header 0 (log.length - count) log (by omega)
    rw [Nat.zero_add] at hshown
    rw [if_neg (by omega), hstart, hload, hfrom, hshown]

/-- Counts below zero load nothing. -/
theorem smpHistoryLoadRecent_neg (H : HistoryOpening K) {dev : HistoryDevice K} {slot : UInt8}
    (hinit : dev.initialized = true) (hslot : slot < 128) {header : HistoryHeader}
    {log : List HistoryMessage} {file : List UInt8}
    (hfile : dev.sd (historyBuildPath slot) = some file)
    (heq : file = historyFile H.toHistoryPrimitives
      (historyDeriveKey H.toHistoryPrimitives dev.masterKey slot) slot header log)
    (hcount : header.msgCount.toNat = log.length) {faults : LoadFaults}
    (hclean : faults.Clean file.length) {count : ℤ} (hneg : count < 0) (heap : Mem) :
    (smpHistoryLoadRecent H dev slot count faults heap).2 = [] := by
  rw [smpHistoryLoadRecent_of_file H hinit hslot hfile heq hclean, hcount]
  by_cases hempty : (log.length : ℤ) = 0
  · rw [if_pos hempty]
  · have hstart : (historyStartIdx log.length count).toNat =
        log.length + ((-count).toNat - 1 + 1) := by
      rw [historyStartIdx, if_pos (by omega)]
      omega
    have hskip := historySkip_beyond H.toHistoryPrimitives
      (historyDeriveKey H.toHistoryPrimitives dev.masterKey slot) slot header.version 0 log
      header.encode ((-count).toNat - 1)
    rw [HistoryHeader.encode_length] at hskip
    rw [if_neg hempty]
    simp only [historyLoadFrom, hstart, heq, historyFile, show historyHeaderSize = 32 from rfl,
      hskip]

end SimpleGo
