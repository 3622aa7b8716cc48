import SimpleGo.Lib.Memory
import SimpleGo.Storage.Nvs

/-!
# The chat history file

`/sdcard/simplego/msgs/chat_XX.bin` is a 32-byte header that stays in the clear, then one
AES-256-GCM record per message. The header is the memory of a packed struct, so its 16-bit
counters are little-endian; the fields of a record are big-endian. The nonce of a record is
built from the slot and the header's message counter.
-/

namespace SimpleGo

open Lib

/-- `HISTORY_HEADER_SIZE`. -/
def historyHeaderSize : ℕ := 32

/-- `HISTORY_MAX_TEXT`. -/
def historyMaxText : ℕ := 4096

/-- `HISTORY_DIR_RECEIVED`. -/
def historyDirReceived : UInt8 := 1

/-- `HISTORY_VERSION`. -/
def historyVersion : UInt8 := 2

/-- `HISTORY_MAGIC_0` to `HISTORY_MAGIC_3`: `SGH` and 1. -/
def historyMagic : Bytes 4 := ⟨#[0x53, 0x47, 0x48, 1], rfl⟩

/-- Little-endian 16-bit word. -/
def le16 (w : UInt16) : List UInt8 := [UInt8.ofNat w.toNat, UInt8.ofNat (w.toNat / 256)]

/-- Big-endian 64-bit word. -/
def be64 (w : UInt64) : List UInt8 :=
  [56, 48, 40, 32, 24, 16, 8, 0].map fun s => UInt8.ofNat (w.toNat / 2 ^ s)

/-- `history_header_t`. -/
structure HistoryHeader where
  magic : Bytes 4
  version : UInt8
  slotIndex : UInt8
  msgCount : UInt16
  unreadCount : UInt16
  lastDeliveredIdx : UInt16
  reserved : Bytes 20

namespace HistoryHeader

/-- The header of a new file. -/
def fresh (slot : UInt8) : HistoryHeader where
  magic := historyMagic
  version := historyVersion
  slotIndex := slot
  msgCount := 0
  unreadCount := 0
  lastDeliveredIdx := 0
  reserved := zeroBytes 20

/-- The struct's memory. -/
def encode (h : HistoryHeader) : List UInt8 :=
  h.magic.toList ++ [h.version, h.slotIndex] ++ le16 h.msgCount ++ le16 h.unreadCount ++
    le16 h.lastDeliveredIdx ++ h.reserved.toList

/-- A 16-bit field of the struct. -/
def word (file : List UInt8) (p : ℕ) : UInt16 :=
  UInt16.ofNat ((file.getD p 0).toNat + 256 * (file.getD (p + 1) 0).toNat)

/-- The struct read over its memory. -/
def decode (file : List UInt8) : HistoryHeader where
  magic := Vector.ofFn fun i => file.getD i.val 0
  version := file.getD 4 0
  slotIndex := file.getD 5 0
  msgCount := word file 6
  unreadCount := word file 8
  lastDeliveredIdx := word file 10
  reserved := Vector.ofFn fun i => file.getD (12 + i.val) 0

/-- `fread(&header, 1, HISTORY_HEADER_SIZE, f)` on a file opened at its start. -/
def read (file : List UInt8) : Option HistoryHeader :=
  if file.length < historyHeaderSize then none else some (decode file)

@[simp] theorem encode_length (h : HistoryHeader) : h.encode.length = 32 := by
  simp [encode, le16]

/-- A file with a readable header is at least as long, and the header is its first bytes. -/
theorem read_eq_some {file : List UInt8} {h : HistoryHeader} :
    read file = some h ↔ historyHeaderSize ≤ file.length ∧ decode file = h := by
  by_cases hlen : file.length < historyHeaderSize
  · simp [read, hlen, Nat.not_le_of_lt hlen]
  · simp [read, hlen, Nat.le_of_not_lt hlen]

end HistoryHeader

/-- The bytes of a word give the word. -/
theorem ofNat_le16 (w : UInt16) :
    UInt16.ofNat ((UInt8.ofNat w.toNat).toNat + 256 * (UInt8.ofNat (w.toNat / 256)).toNat) = w := by
  have hw := w.toNat_lt
  have hsum : w.toNat % 256 + 256 * (w.toNat / 256 % 256) = w.toNat := by omega
  rw [toNat_ofNat_mod, toNat_ofNat_mod, hsum, UInt16.ofNat_toNat]

/-- The two counter bytes of a struct. -/
theorem HistoryHeader.encode_msgCount (h : HistoryHeader) :
    h.encode[6]? = some (UInt8.ofNat h.msgCount.toNat) ∧
      h.encode[7]? = some (UInt8.ofNat (h.msgCount.toNat / 256)) := by
  have hsplit : h.encode = (h.magic.toList ++ [h.version, h.slotIndex]) ++
      (le16 h.msgCount ++ (le16 h.unreadCount ++ (le16 h.lastDeliveredIdx ++ h.reserved.toList))) := by
    simp only [encode, List.append_assoc]
  have hlen : (h.magic.toList ++ [h.version, h.slotIndex]).length = 6 := by simp
  constructor
  · rw [hsplit, List.getElem?_append_right (by omega), hlen]
    rfl
  · rw [hsplit, List.getElem?_append_right (by omega), hlen]
    rfl

/-- The message counter depends on its two bytes only. -/
theorem HistoryHeader.decode_msgCount_congr {file file' : List UInt8} (h6 : file[6]? = file'[6]?)
    (h7 : file[7]? = file'[7]?) : (decode file).msgCount = (decode file').msgCount := by
  simp only [decode, word, List.getD_eq_getElem?_getD, h6, h7]

/-- A file that starts with the counter bytes of a header reads its counter. -/
theorem HistoryHeader.decode_msgCount_eq {file : List UInt8} {h : HistoryHeader}
    (h6 : file[6]? = h.encode[6]?) (h7 : file[7]? = h.encode[7]?) :
    (decode file).msgCount = h.msgCount := by
  rw [h.encode_msgCount.1] at h6
  rw [h.encode_msgCount.2] at h7
  simp only [decode, word, List.getD_eq_getElem?_getD, h6, h7, Option.getD_some]
  exact ofNat_le16 _

/-- The counter bytes of a file are those of the counter read from it. -/
theorem HistoryHeader.getElem?_counter {file : List UInt8}
    (hlen : historyHeaderSize ≤ file.length) :
    file[6]? = (decode file).encode[6]? ∧ file[7]? = (decode file).encode[7]? := by
  have hlen' : 32 ≤ file.length := hlen
  have hword : ((decode file).msgCount).toNat = file[6].toNat + 256 * file[7].toNat := by
    have h6 := file[6].toNat_lt
    have h7 := file[7].toNat_lt
    simp only [decode, word, List.getD_eq_getElem?_getD,
      List.getElem?_eq_getElem (show 6 < file.length by omega),
      List.getElem?_eq_getElem (show 7 < file.length by omega), Option.getD_some]
    exact UInt16.toNat_ofNat_of_lt (by rw [UInt16.size]; omega)
  rw [(decode file).encode_msgCount.1, (decode file).encode_msgCount.2, hword,
    List.getElem?_eq_getElem (show 6 < file.length by omega),
    List.getElem?_eq_getElem (show 7 < file.length by omega)]
  have h6 := file[6].toNat_lt
  constructor
  · congr 1
    apply UInt8.toNat_inj.mp
    rw [toNat_ofNat_mod]
    omega
  · congr 1
    apply UInt8.toNat_inj.mp
    have h7 := file[7].toNat_lt
    rw [toNat_ofNat_mod]
    omega

/-- `history_message_t`; `text` is the array and the memory after it. -/
structure HistoryMessage where
  direction : UInt8
  deliveryStatus : UInt8
  timestamp : Int64
  textLen : UInt16
  text : Mem

/-- Number of text bytes stored. -/
def HistoryMessage.storedLen (msg : HistoryMessage) : ℕ := min msg.textLen.toNat historyMaxText

/-- The payload of a record: version 2 has the delivery status after the direction. -/
def historyPlaintext (version : UInt8) (msg : HistoryMessage) : List UInt8 :=
  [msg.direction] ++ (if version ≥ 2 then [msg.deliveryStatus] else []) ++
    be64 msg.timestamp.toUInt64 ++ be16 msg.storedLen ++ window msg.text 0 msg.storedLen

/-- `history_build_nonce`: shifting the 16-bit index by 24 or 16 leaves nothing. -/
def historyBuildNonce (slot : UInt8) (msgIndex : UInt16) : Bytes 12 :=
  ⟨#[0, slot, 0, 0, 0, 0, 0, 0, UInt8.ofNat (msgIndex.toNat / 2 ^ 24),
    UInt8.ofNat (msgIndex.toNat / 2 ^ 16), UInt8.ofNat (msgIndex.toNat / 2 ^ 8),
    UInt8.ofNat msgIndex.toNat], rfl⟩

/-- A nonce determines the slot and the message index. -/
theorem historyBuildNonce_inj {slot slot' : UInt8} {i j : UInt16} :
    historyBuildNonce slot i = historyBuildNonce slot' j ↔ slot = slot' ∧ i = j := by
  constructor
  · intro h
    have hslot := congrArg (fun v : Bytes 12 => v[1]) h
    have hhigh := congrArg (fun v : Bytes 12 => v[10]) h
    have hlow := congrArg (fun v : Bytes 12 => v[11]) h
    refine ⟨hslot, ?_⟩
    rw [← ofNat_le16 i, ← ofNat_le16 j]
    change UInt8.ofNat (i.toNat / 2 ^ 8) = UInt8.ofNat (j.toNat / 2 ^ 8) at hhigh
    change UInt8.ofNat i.toNat = UInt8.ofNat j.toNat at hlow
    rw [show (2 : ℕ) ^ 8 = 256 from rfl] at hhigh
    rw [hhigh, hlow]
  · rintro ⟨rfl, rfl⟩
    rfl

/-- `%02X` of a byte. -/
def fmt02X (n : ℕ) : String :=
  String.ofList [(Nat.digitChar (n / 16)).toUpper, (Nat.digitChar (n % 16)).toUpper]

/-- `history_build_path`. -/
def historyBuildPath (slot : UInt8) : String :=
  "/sdcard/simplego/msgs/chat_" ++ fmt02X slot.toNat ++ ".bin"

/-- Upper-case hexadecimal digits are distinct. -/
theorem upperDigit_inj {a b : ℕ} (ha : a < 16) (hb : b < 16)
    (h : (Nat.digitChar a).toUpper = (Nat.digitChar b).toUpper) : a = b := by
  have hall : ∀ a : Fin 16, ∀ b : Fin 16,
      (Nat.digitChar a).toUpper = (Nat.digitChar b).toUpper → a = b := by decide
  exact congrArg Fin.val (hall ⟨a, ha⟩ ⟨b, hb⟩ h)

/-- Bytes have different two-digit representations. -/
theorem fmt02X_inj {a b : ℕ} (ha : a < 256) (hb : b < 256) (h : fmt02X a = fmt02X b) : a = b := by
  have hchars := String.ofList_injective h
  obtain ⟨hhigh, htail⟩ := List.cons.inj hchars
  have hlow := (List.cons.inj htail).1
  have hdiv : a / 16 = b / 16 := upperDigit_inj (by omega) (by omega) hhigh
  have hmod : a % 16 = b % 16 := upperDigit_inj (by omega) (by omega) hlow
  omega

/-- Slots have different files. -/
theorem historyBuildPath_inj {slot slot' : UInt8} :
    historyBuildPath slot = historyBuildPath slot' ↔ slot = slot' := by
  constructor
  · intro h
    have hfmt : fmt02X slot.toNat = fmt02X slot'.toNat :=
      (String.append_right_inj _).mp ((String.append_left_inj ".bin").mp h)
    exact UInt8.toNat_inj.mp (fmt02X_inj slot.toNat_lt slot'.toNat_lt hfmt)
  · rintro rfl
    rfl

end SimpleGo
