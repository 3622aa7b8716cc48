import SimpleGo.History.Format
import SimpleGo.Lib.File

/-!
# The history functions

`smp_history_append` reads the header under the bus lock, encrypts without it, and takes it
again to write. Every step may fail, so an append is given the faults it meets; a power loss
is a write of which nothing more lands. The key of a slot is derived from the master key
that `smp_history_init` keeps in NVS. The device records each AES-GCM encryption it makes.
-/

namespace SimpleGo

open Lib

variable {K : Type}

/-- HKDF-SHA-256 and AES-256-GCM as the history uses them, and the chip's MAC. -/
structure HistoryPrimitives (K : Type) where
  /-- `mbedtls_hkdf` with SHA-256 and 32 bytes of output. -/
  hkdfSha256 : (salt ikm info : List UInt8) → K
  /-- Ciphertext and tag, without additional data. -/
  gcmEncrypt : K → Bytes 12 → (plaintext : List UInt8) → List UInt8 × Bytes 16
  /-- `esp_efuse_mac_get_default`. -/
  mac : Bytes 6
  /-- GCM keeps the length. -/
  gcmEncrypt_length : ∀ key iv plaintext,
    (gcmEncrypt key iv plaintext).1.length = plaintext.length

/-- The bytes of a string. -/
def stringBytes (s : String) : List UInt8 := s.toList.map fun c => UInt8.ofNat c.toNat

/-- `history_derive_key`: the info string names the slot and the chip. -/
def historyDeriveKey (H : HistoryPrimitives K) (masterKey : Bytes 32) (slot : UInt8) : K :=
  H.hkdfSha256 (stringBytes "simplego-history") masterKey.toList
    (stringBytes ("simplego-slot-" ++ fmt02x slot.toNat ++ "-") ++
      H.mac.toList.flatMap fun b => stringBytes (fmt02x b.toNat))

/-- One AES-GCM encryption. -/
structure Sealed (K : Type) where
  key : K
  iv : Bytes 12
  plaintext : List UInt8

/-- The card, the stored master key, the module's variables and the encryptions made. -/
structure HistoryDevice (K : Type) where
  sd : Store String (List UInt8)
  nvsKey : Option (Bytes 32)
  masterKey : Bytes 32
  initialized : Bool
  sealed : List (Sealed K)

/-- `esp_err_t`. -/
inductive EspErr where
  | ok
  | fail
  | noMem
  | invalidArg
  | invalidState
  | notFound
  | timeout
  deriving DecidableEq

/-- How NVS answers `smp_history_init`. -/
inductive InitOutcome where
  | openFails
  | readFails
  /-- Writing a new key or its commit fails; the key may be stored all the same. -/
  | writeFails (stored : Bool)
  | works

/-- `smp_history_init`; `draw` is what `esp_fill_random` would give. -/
def HistoryDevice.smpHistoryInit (dev : HistoryDevice K) (draw : Bytes 32)
    (outcome : InitOutcome) : HistoryDevice K :=
  if dev.initialized then dev
  else
    match outcome, dev.nvsKey with
    | .openFails, _ => dev
    | .readFails, _ => dev
    | _, some key => { dev with masterKey := key, initialized := true }
    | .writeFails stored, none =>
      { dev with masterKey := draw, nvsKey := if stored then some draw else none }
    | .works, none => { dev with masterKey := draw, nvsKey := some draw, initialized := true }

/-- A reboot clears the variables; `app_main` erases an NVS partition of another format. -/
def HistoryDevice.reboot (dev : HistoryDevice K) (nvsErased : Bool) : HistoryDevice K :=
  { dev with
    nvsKey := if nvsErased then none else dev.nvsKey
    masterKey := zeroBytes 32
    initialized := false }

/-- What goes wrong in an append. -/
structure AppendFaults where
  /-- `smp_storage_sd_available`. -/
  sdAvailable : Bool
  lock₁ : Bool
  /-- The first `fopen`, of a file that exists. -/
  openRead : Bool
  readHeader : Bool
  /-- The error of the first step that fails between the two passes (HKDF, an allocation,
  the AES-GCM calls). -/
  cpu : Option EspErr
  lock₂ : Bool
  openWrite : Bool
  /-- Bytes of each `fwrite` that reach the card, in the order of the writes. -/
  headerLanded : ℕ
  lenLanded : ℕ
  ivLanded : ℕ
  ciphertextLanded : ℕ
  tagLanded : ℕ
  counterLanded : ℕ
  seekEnd : Bool
  seekStart : Bool

/-- Pass 1: the header, and whether the file is new. Every failing `fopen` makes a new one. -/
def historyReadHeader (sd : Store String (List UInt8)) (slot : UInt8) (faults : AppendFaults) :
    Except EspErr (HistoryHeader × Bool) :=
  if faults.lock₁ then
    match if faults.openRead then sd (historyBuildPath slot) else none with
    | none => .ok (.fresh slot, true)
    | some file =>
      match if faults.readHeader then HistoryHeader.read file else none with
      | none => .error .fail
      | some header => if header.magic = historyMagic then .ok (header, false) else .error .fail
  else .error .timeout

/-- The header after an append. -/
def HistoryHeader.counted (header : HistoryHeader) (direction : UInt8) : HistoryHeader :=
  { header with
    msgCount := header.msgCount + 1
    unreadCount := if direction = historyDirReceived then header.unreadCount + 1
      else header.unreadCount }

/-- The opened file where the record goes: a new file gets its header first. -/
def historyOpenEnd (content : List UInt8) (header : HistoryHeader) (newFile : Bool)
    (faults : AppendFaults) : OpenFile :=
  let f : OpenFile := ⟨content, 0⟩
  (if newFile then f.fwrite header.encode faults.headerLanded else f).seekEnd faults.seekEnd

/-- The record: its length, nonce, ciphertext and tag. -/
def historyWriteRecord (f : OpenFile) (iv : Bytes 12) (sealedText : List UInt8 × Bytes 16)
    (faults : AppendFaults) : OpenFile :=
  let f := f.fwrite (be16 (2 + 12 + sealedText.1.length + 16)) faults.lenLanded
  let f := f.fwrite iv.toList faults.ivLanded
  let f := f.fwrite sealedText.1 faults.ciphertextLanded
  f.fwrite sealedText.2.toList faults.tagLanded

/-- The header, written over the start of the file. -/
def historyRewriteHeader (f : OpenFile) (header : HistoryHeader) (seekStart : Bool)
    (landed : ℕ) : OpenFile :=
  (f.seekSet 0 seekStart).fwrite header.encode landed

/-- What pass 2 leaves of a file opened with the given contents. -/
def historyAppended (content : List UInt8) (header : HistoryHeader) (newFile : Bool)
    (iv : Bytes 12) (sealedText : List UInt8 × Bytes 16) (direction : UInt8)
    (faults : AppendFaults) : List UInt8 :=
  (historyRewriteHeader
    (historyWriteRecord (historyOpenEnd content header newFile faults) iv sealedText faults)
    (header.counted direction) faults.seekStart faults.counterLanded).content

/-- Pass 2: `wb` empties the file, `r+b` needs one. -/
def historyWritePass (sd : Store String (List UInt8)) (slot : UInt8) (header : HistoryHeader)
    (newFile : Bool) (iv : Bytes 12) (sealedText : List UInt8 × Bytes 16) (direction : UInt8)
    (faults : AppendFaults) : Store String (List UInt8) × EspErr :=
  if faults.lock₂ then
    match if faults.openWrite then (if newFile then some [] else sd (historyBuildPath slot))
      else none with
    | none => (sd, .fail)
    | some content =>
      (sd.put (historyBuildPath slot)
        (historyAppended content header newFile iv sealedText direction faults), .ok)
  else (sd, .timeout)

/-- `smp_history_append`. -/
def smpHistoryAppend (H : HistoryPrimitives K) (dev : HistoryDevice K) (slot : UInt8)
    (msg : HistoryMessage) (faults : AppendFaults) : HistoryDevice K × EspErr :=
  if !dev.initialized then (dev, .invalidState)
  else if !faults.sdAvailable then (dev, .notFound)
  else if slot ≥ 128 then (dev, .invalidArg)
  else
    match historyReadHeader dev.sd slot faults with
    | .error err => (dev, err)
    | .ok (header, newFile) =>
      match faults.cpu with
      | some err => (dev, err)
      | none =>
        let key := historyDeriveKey H dev.masterKey slot
        let plaintext := historyPlaintext header.version msg
        let iv := historyBuildNonce slot header.msgCount
        let (sd, err) := historyWritePass dev.sd slot header newFile iv
          (H.gcmEncrypt key iv plaintext) msg.direction faults
        ({ dev with sd := sd, sealed := ⟨key, iv, plaintext⟩ :: dev.sealed }, err)

/-- What goes wrong in a header update. -/
structure UpdateFaults where
  lock : Bool
  openUpdate : Bool
  readHeader : Bool
  seekStart : Bool
  headerLanded : ℕ

/-- A header update: read the header, change it, write it back at the start. `change` gives
nothing when there is nothing to write. -/
def historyUpdateHeader (change : HistoryHeader → Option HistoryHeader) (dev : HistoryDevice K)
    (slot : UInt8) (faults : UpdateFaults) : HistoryDevice K × EspErr :=
  if !dev.initialized then (dev, .invalidState)
  else if slot ≥ 128 then (dev, .invalidArg)
  else if !faults.lock then (dev, .timeout)
  else
    match if faults.openUpdate then dev.sd (historyBuildPath slot) else none with
    | none => (dev, .ok)
    | some file =>
      match if faults.readHeader then HistoryHeader.read file else none with
      | none => (dev, .fail)
      | some header =>
        match change header with
        | none => (dev, .ok)
        | some header' =>
          -- The read leaves the position behind the header; a failing seek keeps it there.
          let f := historyRewriteHeader ⟨file, historyHeaderSize⟩ header' faults.seekStart
            faults.headerLanded
          ({ dev with sd := dev.sd.put (historyBuildPath slot) f.content }, .ok)

/-- `smp_history_mark_read`. -/
def smpHistoryMarkRead (dev : HistoryDevice K) (slot : UInt8) (faults : UpdateFaults) :
    HistoryDevice K × EspErr :=
  historyUpdateHeader (fun header => some { header with unreadCount := 0 }) dev slot faults

/-- `smp_history_update_delivered`: the mark only rises. -/
def smpHistoryUpdateDelivered (dev : HistoryDevice K) (slot : UInt8) (msgIndex : UInt16)
    (faults : UpdateFaults) : HistoryDevice K × EspErr :=
  historyUpdateHeader (fun header =>
    if msgIndex > header.lastDeliveredIdx then some { header with lastDeliveredIdx := msgIndex }
    else none) dev slot faults

/-- `smp_history_delete`; `remove` may fail. -/
def smpHistoryDelete (dev : HistoryDevice K) (slot : UInt8) (removed : Bool) :
    HistoryDevice K × EspErr :=
  if slot ≥ 128 then (dev, .invalidArg)
  else
    ({ dev with sd := if removed then dev.sd.erase (historyBuildPath slot) else dev.sd }, .ok)

/-- A step of the device. -/
inductive HistoryAction where
  | init (draw : Bytes 32) (outcome : InitOutcome)
  | append (slot : UInt8) (msg : HistoryMessage) (faults : AppendFaults)
  | markRead (slot : UInt8) (faults : UpdateFaults)
  | updateDelivered (slot : UInt8) (msgIndex : UInt16) (faults : UpdateFaults)
  | delete (slot : UInt8) (removed : Bool)
  | reboot (nvsErased : Bool)

/-- The device after a step. -/
def HistoryDevice.step (H : HistoryPrimitives K) (dev : HistoryDevice K) :
    HistoryAction → HistoryDevice K
  | .init draw outcome => dev.smpHistoryInit draw outcome
  | .append slot msg faults => (smpHistoryAppend H dev slot msg faults).1
  | .markRead slot faults => (smpHistoryMarkRead dev slot faults).1
  | .updateDelivered slot msgIndex faults =>
    (smpHistoryUpdateDelivered dev slot msgIndex faults).1
  | .delete slot removed => (smpHistoryDelete dev slot removed).1
  | .reboot nvsErased => dev.reboot nvsErased

/-- A device that has never stored anything. -/
def HistoryDevice.blank : HistoryDevice K where
  sd := fun _ => none
  nvsKey := none
  masterKey := zeroBytes 32
  initialized := false
  sealed := []

end SimpleGo
