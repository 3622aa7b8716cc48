import Mathlib.Data.Int.Notation
import SimpleGo.History.Device

/-!
# Reading the chat history

`smp_history_load_recent` walks the records from the start of the file: it skips the older
ones by their length fields, reads the others into one buffer under the bus lock, and
decrypts them in place afterwards. A record that does not authenticate is left out of the
result. The buffer holds a run of the file, so the parser may read past a short plaintext
into the tag and the records behind it, and at last into the heap.
-/

namespace SimpleGo

open Lib

variable {K : Type}

/-- `HISTORY_MAX_LOAD`. -/
def historyMaxLoad : ℕ := 20

/-- `HISTORY_MAX_PAYLOAD`. -/
def historyMaxPayload : ℕ := 16000

/-- `HISTORY_DIR_SENT`. -/
def historyDirSent : UInt8 := 0

/-- The history primitives with the opening half of AES-256-GCM. -/
structure HistoryOpening (K : Type) extends HistoryPrimitives K where
  /-- `mbedtls_gcm_auth_decrypt`. -/
  gcmDecrypt : K → Bytes 12 → (ciphertext : List UInt8) → (tag : Bytes 16) → Option (List UInt8)
  /-- The keystream of counter mode. -/
  keystream : K → Bytes 12 → ℕ → UInt8
  /-- What was sealed is opened. -/
  gcmDecrypt_gcmEncrypt : ∀ key iv plaintext,
    gcmDecrypt key iv (gcmEncrypt key iv plaintext).1 (gcmEncrypt key iv plaintext).2 =
      some plaintext
  /-- What is opened is the ciphertext under the keystream. -/
  gcmDecrypt_keystream : ∀ {key iv ciphertext tag plaintext},
    gcmDecrypt key iv ciphertext tag = some plaintext →
      plaintext = ciphertext.mapIdx fun i c => c ^^^ keystream key iv i

/-- What goes wrong in a load. -/
structure LoadFaults where
  /-- `smp_storage_sd_available`. -/
  sdAvailable : Bool
  /-- The error of `history_derive_key`. -/
  deriveKey : Option EspErr
  lock : Bool
  /-- `fopen`, of a file that exists. -/
  openRead : Bool
  /-- Bytes of the file that can be read; a read past them comes short. -/
  readable : ℕ
  /-- The allocation of the buffer in PSRAM. -/
  alloc : Bool

/-- The length field of the record at a position, when it can be read. -/
def historyRecordLen (file : List UInt8) (pos : ℕ) : Option ℕ :=
  match file[pos]?, file[pos + 1]? with
  | some high, some low => some (high.toNat * 256 + low.toNat)
  | _, _ => none

/-- Skip records: `fseek(f, rec_len - 2, SEEK_CUR)` after the two bytes of each length. -/
def historySkip (file : List UInt8) : (records pos : ℕ) → Option ℕ
  | 0, pos => some pos
  | records + 1, pos =>
    match historyRecordLen file pos with
    | none => none
    | some recLen => historySkip file records (pos + recLen)

/-- Read records into the buffer: their offsets, and how much of the buffer is written. The
buffer is the file from `start` on. `rec_len - 2` is computed in 32 bits. -/
def historyReadRecords (file : List UInt8) (start bufAlloc : ℕ) :
    (records used : ℕ) → List ℕ × ℕ
  | 0, used => ([], used)
  | records + 1, used =>
    match historyRecordLen file (start + used) with
    | none => ([], used)
    | some recLen =>
      let dataLen := (4294967294 + recLen) % 4294967296
      if (used + 2 + dataLen) % 4294967296 > bufAlloc then ([], used)
      -- A short read has put what there was into the buffer.
      else if file.length < start + used + 2 + dataLen then ([], file.length - start)
      else
        let (offsets, used') := historyReadRecords file start bufAlloc records (used + 2 + dataLen)
        (used :: offsets, used')

/-- A big-endian 64-bit word. -/
def read64 (m : Mem) (p : ℕ) : UInt64 :=
  UInt64.ofNat ((m p).toNat * 2 ^ 56 + (m (p + 1)).toNat * 2 ^ 48 + (m (p + 2)).toNat * 2 ^ 40 +
    (m (p + 3)).toNat * 2 ^ 32 + (m (p + 4)).toNat * 2 ^ 24 + (m (p + 5)).toNat * 2 ^ 16 +
    (m (p + 6)).toNat * 2 ^ 8 + (m (p + 7)).toNat)

/-- The status shown for a message: the high-water mark delivers what was only sent. -/
def historyShownStatus (direction status : UInt8) (msgIdx lastDelivered : UInt16) : UInt8 :=
  if direction = historyDirSent ∧ msgIdx ≤ lastDelivered ∧ status < 2 then 1 else status

/-- Parse a plaintext into the cleared output record. -/
def historyParse (header : HistoryHeader) (msgIdx : UInt16) (plaintext : Mem) : HistoryMessage :=
  let p := if header.version ≥ 2 then 2 else 1
  let status := if header.version ≥ 2 then plaintext 1 else 0
  let textLen := min (read16 plaintext (p + 8)) historyMaxText
  { direction := plaintext 0
    deliveryStatus := historyShownStatus (plaintext 0) status msgIdx header.lastDeliveredIdx
    timestamp := (read64 plaintext p).toInt64
    textLen := UInt16.ofNat textLen
    text := fun i => if i < textLen then plaintext (p + 10 + i) else 0 }

/-- Decrypt and parse the record at an offset of the buffer. -/
def historyOpenRecord (H : HistoryOpening K) (key : K) (header : HistoryHeader) (rawBuf : Mem)
    (msgIdx : UInt16) (off : ℕ) : Option HistoryMessage :=
  let ctLen := (4294967266 + read16 rawBuf off) % 4294967296
  if ctLen > 11 + historyMaxPayload then none
  else
    match H.gcmDecrypt key (windowBytes rawBuf (off + 2) 12) (window rawBuf (off + 14) ctLen)
        (windowBytes rawBuf (off + 14 + ctLen) 16) with
    | none => none
    | some plaintext =>
      some (historyParse header msgIdx (memOf plaintext fun i => rawBuf (off + 14 + i)))

/-- The decryption loop: `*loaded` moves on with each record that opens. -/
def historyOpenRecords (H : HistoryOpening K) (key : K) (header : HistoryHeader) (rawBuf : Mem) :
    (index : ℕ) → (offsets : List ℕ) → List HistoryMessage
  | _, [] => []
  | index, off :: offsets =>
    match historyOpenRecord H key header rawBuf (UInt16.ofNat index) off with
    | none => historyOpenRecords H key header rawBuf (index + 1) offsets
    | some msg => msg :: historyOpenRecords H key header rawBuf (index + 1) offsets

/-- `start_idx`: the older messages are skipped. -/
def historyStartIdx (msgCount count : ℤ) : ℤ := if msgCount > count then msgCount - count else 0

/-- From the seek behind the header on: skip, read, decrypt. `heap` is what the buffer holds
before it is written. -/
def historyLoadFrom (H : HistoryOpening K) (key : K) (header : HistoryHeader) (file : List UInt8)
    (startIdx toLoad : ℤ) (heap : Mem) : EspErr × List HistoryMessage :=
  let bufAlloc := (toLoad * 16041 % 4294967296).toNat
  match historySkip file startIdx.toNat historyHeaderSize with
  | none => (.fail, [])
  | some start =>
    let (offsets, used) := historyReadRecords file start bufAlloc
      (min toLoad.toNat historyMaxLoad) 0
    let rawBuf : Mem := fun i => if i < used then file.getD (start + i) 0 else heap i
    (.ok, historyOpenRecords H key header rawBuf startIdx.toNat offsets)

/-- `smp_history_load_recent`. The result comes with `out[0]` to `out[*loaded - 1]`. -/
def smpHistoryLoadRecent (H : HistoryOpening K) (dev : HistoryDevice K) (slot : UInt8)
    (count : ℤ) (faults : LoadFaults) (heap : Mem) : EspErr × List HistoryMessage :=
  if !dev.initialized then (.invalidState, [])
  else if !faults.sdAvailable then (.notFound, [])
  else if slot ≥ 128 then (.invalidArg, [])
  else
    match faults.deriveKey with
    | some err => (err, [])
    | none =>
      let key := historyDeriveKey H.toHistoryPrimitives dev.masterKey slot
      if !faults.lock then (.timeout, [])
      else
        match if faults.openRead then dev.sd (historyBuildPath slot) else none with
        | none => (.ok, [])
        | some content =>
          let file := content.take faults.readable
          match HistoryHeader.read file with
          | none => (.fail, [])
          | some header =>
            let msgCount : ℤ := header.msgCount.toNat
            if msgCount = 0 then (.ok, [])
            else
              let startIdx := historyStartIdx msgCount count
              let toLoad := min (msgCount - startIdx) count
              if !faults.alloc then (.noMem, [])
              else historyLoadFrom H key header file startIdx toLoad heap

/-- What goes wrong in reading the counters. -/
structure CountFaults where
  lock : Bool
  openRead : Bool
  readHeader : Bool

/-- `smp_history_get_counts`: the error, and the totals where they are written. -/
def smpHistoryGetCounts (dev : HistoryDevice K) (slot : UInt8) (faults : CountFaults) :
    EspErr × Option (UInt16 × UInt16) :=
  if !dev.initialized then (.invalidState, none)
  else if slot ≥ 128 then (.invalidArg, none)
  else if !faults.lock then (.timeout, none)
  else
    match if faults.openRead then dev.sd (historyBuildPath slot) else none with
    | none => (.ok, some (0, 0))
    | some file =>
      match if faults.readHeader then HistoryHeader.read file else none with
      | none => (.fail, none)
      | some header => (.ok, some (header.msgCount, header.unreadCount))

end SimpleGo
