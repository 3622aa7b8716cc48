import SimpleGo.Agent.Codings
import SimpleGo.Rotation.Announcements
import SimpleGo.Rotation.MessageLoss

/-!
# The buffer and the format of a QADD

What `rotation_build_qadd_payload` leaves in the buffer it is given, also where it gives up, and
how a payload is read by the grammar of its comments: a tag and a count, and for every entry the
version range, the new queue, its key, and the queue that is replaced.
-/

namespace SimpleGo

open Lib

/-! ### The format -/

/-- A queue on a server: host, port, key hash and sender id. -/
structure QueueAddress where
  host : List UInt8
  port : ℤ
  keyHash : List UInt8
  senderId : List UInt8
  deriving DecidableEq

/-- An entry of a QADD. -/
structure QaddEntry where
  versionRange : List UInt8
  newQueue : QueueAddress
  dhPublicKey : List UInt8
  replaced : QueueAddress
  deriving DecidableEq

/-- Read a server and a sender id; the port is a decimal number. -/
def takeQueueAddress (bytes : List UInt8) : Option (QueueAddress × List UInt8) :=
  (takeSndQAddr bytes).map fun (addr, rest) =>
    (⟨addr.host, atoi addr.port, addr.keyHash, addr.senderId⟩, rest)

/-- Read an X25519 key in its SPKI form. -/
def takeDhPublicKey (bytes : List UInt8) : Option (List UInt8 × List UInt8) := do
  let (spki, rest) ← takeShort bytes
  if spki.length = 44 ∧ spki.take 12 = RotationDevice.x25519SpkiHdr then
    some (spki.drop 12, rest)
  else none

/-- Read one entry: version range, server, sender id, key, `1` and the replaced queue. -/
def takeQaddEntry : List UInt8 → Option (QaddEntry × List UInt8)
  | v₀ :: v₁ :: v₂ :: v₃ :: rest => do
    let (newQueue, rest) ← takeQueueAddress rest
    let (key, rest) ← takeDhPublicKey rest
    match rest with
    | 0x31 :: rest => do
      let (replaced, rest) ← takeQueueAddress rest
      some (⟨[v₀, v₁, v₂, v₃], newQueue, key, replaced⟩, rest)
    | _ => none
  | _ => none

/-- Read a number of entries. -/
def takeQaddEntries : ℕ → List UInt8 → Option (List QaddEntry × List UInt8)
  | 0, bytes => some ([], bytes)
  | count + 1, bytes => do
    let (entry, rest) ← takeQaddEntry bytes
    let (entries, rest) ← takeQaddEntries count rest
    some (entry :: entries, rest)

/-- Read a whole QADD: the tag, the count and its entries, and nothing behind them. -/
def readQadd : List UInt8 → Option (List QaddEntry)
  | 0x51 :: 0x41 :: count :: rest => do
    let (entries, rest) ← takeQaddEntries count.toNat rest
    if rest = [] then some entries else none
  | _ => none

/-! ### Queues as the device keeps them -/

/-- A queue on a server, in the arrays that hold it. -/
structure HeldQueue where
  host : Bytes 64
  port : ℤ
  keyHash : Bytes 32
  senderId : Bytes 24
  senderIdLen : ℕ

/-- `needed` in `encode_smp_server`. -/
def smpServerLength (host : Bytes 64) (port : ℤ) : ℕ :=
  1 + 1 + (cString host).length + 1 + (portString port).length + 1 + 32

namespace HeldQueue

/-- Its address. -/
def address (q : HeldQueue) : QueueAddress :=
  ⟨cString q.host, q.port, q.keyHash.toList, q.senderId.toList.take q.senderIdLen⟩

/-- The port in the 16 bits that `encode_smp_server` takes. -/
def withPort16 (q : HeldQueue) : HeldQueue := { q with port := q.port % 65536 }

/-- Its address as `encode_smp_server` and the copied id write it. -/
def encode (q : HeldQueue) : List UInt8 :=
  encodeSmpServer q.host q.port q.keyHash ++ encodeSenderId q.senderId q.senderIdLen

/-- The id fits its array. -/
def Fits (q : HeldQueue) : Prop := q.senderIdLen ≤ 24

end HeldQueue

namespace RotationDevice

variable (dev : RotationDevice)

/-- A queue on the target server. -/
def onTargetServer (senderId : Bytes 24) (senderIdLen : ℕ) : HeldQueue :=
  ⟨dev.ctx.targetHost, dev.ctx.targetPort.toNat, dev.ctx.targetKeyHash, senderId, senderIdLen⟩

/-- A queue on the server of our queues. -/
def onOurServer (senderId : Bytes 24) (senderIdLen : ℕ) : HeldQueue :=
  ⟨dev.ourQueue.serverHost, dev.ourQueue.serverPort, dev.ourQueue.serverKeyHash, senderId,
    senderIdLen⟩

/-- The new main queue of a contact. -/
def newMainQueue (idx : ℕ) : HeldQueue :=
  dev.onTargetServer (dev.record idx).main.sndId (dev.record idx).main.sndIdLen.toNat

/-- The new reply queue of a contact. -/
def newReplyQueue (idx : ℕ) : HeldQueue :=
  dev.onTargetServer (dev.record idx).rq.sndId (dev.record idx).rq.sndIdLen.toNat

/-- The queue that the main queue replaces: the contact's reply queue. -/
def replacedMainQueue (idx : ℕ) : HeldQueue :=
  dev.onOurServer (dev.replyQueues idx).sndId (dev.replyQueues idx).sndIdLen.toNat

/-- The queue that the reply queue replaces: the one of the invitation. -/
def replacedReplyQueue : HeldQueue :=
  dev.onOurServer dev.ourQueue.sndId dev.ourQueue.sndIdLen.toNat

/-- The entries that a QADD for the contact should carry. -/
def qaddEntries (idx : ℕ) : List QaddEntry :=
  [⟨clientVRange, (dev.newMainQueue idx).address, (dev.record idx).main.e2ePublic.toList,
      (dev.replacedMainQueue idx).address⟩,
    ⟨clientVRange, (dev.newReplyQueue idx).address, (dev.record idx).rq.e2ePublic.toList,
      dev.replacedReplyQueue.address⟩]

/-! ### The buffer -/

/-- Chunks one after the other, up to the first that does not fit: the buffer, and whether all
of them are in it. -/
def putChunks (size : ℕ) (buf : List UInt8) : List (List UInt8) → List UInt8 × Bool
  | [] => (buf, true)
  | chunk :: chunks =>
    match putChunk size buf chunk with
    | none => (buf, false)
    | some next => putChunks size next chunks

/-- What `rotation_build_qadd_payload` writes, also where it returns `-1`. The reply queue is
checked behind the server of the first entry. -/
def qaddWritten (idx size : ℕ) : List UInt8 :=
  if maxContacts ≤ idx ∨ (dev.record idx).state ≠ .queueCreated ∨ dev.ourQueue.valid = false then []
  else
    let front := putChunks size [] ([[0x51, 0x41], [2]] ++ (dev.qaddMainEntry idx).take 6)
    if front.2 = false ∨ (dev.replyQueues idx).valid = false then front.1
    else
      let back := putChunks size front.1 ((dev.qaddMainEntry idx).drop 6 ++ dev.qaddRqEntry idx)
      if back.2 = false then back.1
      else if 0 < dev.ourQueue.sndIdLen then
        (putChunks size back.1
          [encodeSenderId dev.ourQueue.sndId dev.ourQueue.sndIdLen.toNat]).1
      else back.1 ++ [0]

/-- The lengths of the ids, as the code that stores them checks. -/
structure QaddIds (idx : ℕ) : Prop where
  main : (dev.record idx).main.sndIdLen ≤ 24
  rq : (dev.record idx).rq.sndIdLen ≤ 24
  replaced : 0 ≤ (dev.replyQueues idx).sndIdLen ∧ (dev.replyQueues idx).sndIdLen ≤ 24
  invitation : 0 ≤ dev.ourQueue.sndIdLen ∧ dev.ourQueue.sndIdLen ≤ 24

/-- What the builder should do: no byte is written behind the buffer, and a payload that is
returned fits and reads back as the two entries. -/
structure QaddRight (idx size : ℕ) : Prop where
  bounded : (dev.qaddWritten idx size).length ≤ size
  returned : ∀ payload, dev.rotationBuildQaddPayload idx size = some payload →
    payload.length ≤ size ∧ readQadd payload = some (dev.qaddEntries idx)

/-- The length of a QADD in front of the sender id of the invitation. -/
def qaddFrontLength (idx : ℕ) : ℕ :=
  let target := smpServerLength dev.ctx.targetHost dev.ctx.targetPort.toNat
  let old := smpServerLength dev.ourQueue.serverHost (dev.ourQueue.serverPort % 65536)
  3 + (4 + target + (1 + (dev.record idx).main.sndIdLen.toNat) + 45 + 1 + old +
      (1 + (dev.replyQueues idx).sndIdLen.toNat)) +
    (4 + target + (1 + (dev.record idx).rq.sndIdLen.toNat) + 45 + 1 + old)

/-- The condition on the inputs: unless the builder refuses at once, an empty sender id of the
invitation does not come to lie right behind the buffer, and the port of a payload that fits is
one of 16 bits. -/
def QaddFits (idx size : ℕ) : Prop :=
  idx < maxContacts → (dev.record idx).state = .queueCreated → dev.ourQueue.valid = true →
    (dev.replyQueues idx).valid = true →
      (0 < dev.ourQueue.sndIdLen ∨ dev.qaddFrontLength idx ≠ size) ∧
        (dev.qaddFrontLength idx + 1 + dev.ourQueue.sndIdLen.toNat ≤ size →
          0 ≤ dev.ourQueue.serverPort ∧ dev.ourQueue.serverPort < 65536)

end RotationDevice

/-! ### Reading what is written -/

/-- A port of 16 bits is read back from its text. -/
theorem atoi_portString {port : ℤ} (hlow : 0 ≤ port) (hhigh : port < 65536) :
    atoi (portString port) = port := by
  have hlength : (decimal port).length ≤ 7 := by
    rw [decimal_eq, if_pos hlow, decimalDigits, List.length_map,
      Nat.length_toDigits_le_iff (by decide) (by decide)]
    omega
  have htext : portString port = decimal port := List.take_of_length_le hlength
  have hport : (Int32.ofInt port).toInt = port :=
    Int32.toInt_ofInt_of_le (by omega) (by omega)
  rw [htext]
  conv_rhs => rw [← hport]
  rw [← atoi_decimal, hport]

namespace HeldQueue

/-- An address with a port of 16 bits is read back. -/
theorem takeQueueAddress_encode {q : HeldQueue} (hfits : q.Fits) (hlow : 0 ≤ q.port)
    (hhigh : q.port < 65536) (rest : List UInt8) :
    takeQueueAddress (q.encode ++ rest) = some (q.address, rest) := by
  rw [takeQueueAddress, encode, takeSndQAddr_encode _ _ _ _ hfits]
  simp only [Option.map_some, queueAddr, atoi_portString hlow hhigh]
  rfl

end HeldQueue

/-- A key is read back. -/
theorem takeDhPublicKey_field (key : Bytes 32) (rest : List UInt8) :
    takeDhPublicKey (RotationDevice.dhPublicKeyField key ++ rest) = some (key.toList, rest) := by
  have hlength : (RotationDevice.x25519SpkiHdr ++ key.toList).length = 44 := by
    rw [List.length_append, Vector.length_toList]
    rfl
  have hfield : RotationDevice.dhPublicKeyField key =
      shortString (RotationDevice.x25519SpkiHdr ++ key.toList) := by
    rw [shortString, hlength]
    rfl
  rw [takeDhPublicKey, hfield, takeShort_shortString _ _ (by omega)]
  simp only [Option.bind_eq_bind, Option.bind_some]
  rw [if_pos ⟨hlength, rfl⟩]
  rfl

/-- An entry as it is written. -/
def encodeQaddEntry (newQueue : HeldQueue) (key : Bytes 32) (replaced : HeldQueue) : List UInt8 :=
  RotationDevice.clientVRange ++ newQueue.encode ++ RotationDevice.dhPublicKeyField key ++
    0x31 :: replaced.encode

/-- An entry is read back. -/
theorem takeQaddEntry_encode {newQueue replaced : HeldQueue} (key : Bytes 32)
    (hnew : newQueue.Fits) (hold : replaced.Fits)
    (hnewPort : 0 ≤ newQueue.port ∧ newQueue.port < 65536)
    (holdPort : 0 ≤ replaced.port ∧ replaced.port < 65536) (rest : List UInt8) :
    takeQaddEntry (encodeQaddEntry newQueue key replaced ++ rest) =
      some (⟨RotationDevice.clientVRange, newQueue.address, key.toList, replaced.address⟩,
        rest) := by
  simp only [encodeQaddEntry, RotationDevice.clientVRange, List.cons_append, List.append_assoc,
    List.nil_append, takeQaddEntry]
  rw [HeldQueue.takeQueueAddress_encode hnew hnewPort.1 hnewPort.2]
  simp only [Option.bind_eq_bind, Option.bind_some]
  rw [takeDhPublicKey_field]
  simp only [Option.bind_some]
  rw [HeldQueue.takeQueueAddress_encode hold holdPort.1 holdPort.2]
  rfl

/-! ### Chunks in a buffer -/

namespace RotationDevice

variable {dev : RotationDevice} {idx size : ℕ}

/-- What is in the buffer fits it. -/
theorem putChunks_length_le {buf : List UInt8} (h : buf.length ≤ size)
    (chunks : List (List UInt8)) : (putChunks size buf chunks).1.length ≤ size := by
  induction chunks generalizing buf with
  | nil => exact h
  | cons chunk chunks ih =>
    rw [putChunks, putChunk]
    by_cases hfull : size < buf.length + chunk.length
    · rw [if_pos hfull]
      exact h
    · rw [if_neg hfull]
      exact ih (by rw [List.length_append]; omega)

/-- Chunks that are all in the buffer are there in order. -/
theorem putChunks_fst {buf : List UInt8} {chunks : List (List UInt8)}
    (h : (putChunks size buf chunks).2 = true) :
    (putChunks size buf chunks).1 = buf ++ chunks.flatten := by
  induction chunks generalizing buf with
  | nil => simp [putChunks]
  | cons chunk chunks ih =>
    rw [putChunks, putChunk] at h ⊢
    by_cases hfull : size < buf.length + chunk.length
    · rw [if_pos hfull] at h
      cases h
    · rw [if_neg hfull] at h ⊢
      rw [ih h, List.flatten_cons, List.append_assoc]

/-- The chunks are all in the buffer exactly when there is room for them. -/
theorem putChunks_snd {buf : List UInt8} (h : buf.length ≤ size) (chunks : List (List UInt8)) :
    (putChunks size buf chunks).2 = true ↔ buf.length + chunks.flatten.length ≤ size := by
  induction chunks generalizing buf with
  | nil => simp [putChunks, h]
  | cons chunk chunks ih =>
    rw [putChunks, putChunk, List.flatten_cons, List.length_append]
    by_cases hfull : size < buf.length + chunk.length
    · rw [if_pos hfull]
      exact iff_of_false Bool.false_ne_true (by omega)
    · rw [if_neg hfull, ih (by rw [List.length_append]; omega), List.length_append, Nat.add_assoc]

/-- Two groups of chunks, one after the other. -/
theorem putChunks_append (buf : List UInt8) (first second : List (List UInt8)) :
    putChunks size buf (first ++ second) =
      if (putChunks size buf first).2 then putChunks size (putChunks size buf first).1 second
      else putChunks size buf first := by
  induction first generalizing buf with
  | nil => rfl
  | cons chunk first ih =>
    rw [List.cons_append, putChunks, putChunks]
    rcases putChunk size buf chunk with _ | next
    · rfl
    · exact ih next

/-- The chunks as a result. -/
theorem foldlM_putChunk_eq (buf : List UInt8) (chunks : List (List UInt8)) :
    chunks.foldlM (putChunk size) buf =
      if (putChunks size buf chunks).2 then some (putChunks size buf chunks).1 else none := by
  induction chunks generalizing buf with
  | nil => rfl
  | cons chunk chunks ih =>
    rw [List.foldlM_cons, putChunks]
    rcases putChunk size buf chunk with _ | next
    · rfl
    · exact ih next

/-! ### The payload -/

/-- The fields in front of the sender id of the invitation. -/
def qaddFront (dev : RotationDevice) (idx : ℕ) : List (List UInt8) :=
  [[0x51, 0x41], [2]] ++ dev.qaddMainEntry idx ++ dev.qaddRqEntry idx

/-- The builder does not refuse at once. -/
def QaddReady (dev : RotationDevice) (idx : ℕ) : Prop :=
  idx < maxContacts ∧ (dev.record idx).state = .queueCreated ∧ dev.ourQueue.valid = true ∧
    (dev.replyQueues idx).valid = true

/-- The fields are as long as the formula says. -/
theorem qaddFront_length (hids : dev.QaddIds idx) :
    (dev.qaddFront idx).flatten.length = dev.qaddFrontLength idx := by
  have hserver : ∀ host port keyHash,
      (encodeSmpServer host port keyHash).length = smpServerLength host port := by
    intro host port keyHash
    simp only [encodeSmpServer, smpServerLength, shortString, List.length_cons,
      List.length_append, Vector.length_toList]
    omega
  have hid : ∀ (id : Bytes 24) {len : ℕ}, len ≤ 24 → (encodeSenderId id len).length = 1 + len := by
    intro id len hlen
    rw [encodeSenderId, List.length_cons, List.length_take, Vector.length_toList]
    omega
  have hkey : ∀ key, (dhPublicKeyField key).length = 45 := by
    intro key
    rw [dhPublicKeyField, List.length_cons, List.length_append, Vector.length_toList]
    rfl
  have hmain : (dev.record idx).main.sndIdLen.toNat ≤ 24 := hids.main
  have hrq : (dev.record idx).rq.sndIdLen.toNat ≤ 24 := hids.rq
  have hreplaced : (dev.replyQueues idx).sndIdLen.toNat ≤ 24 := Int.toNat_le.mpr hids.replaced.2
  simp only [qaddFront, qaddMainEntry, qaddRqEntry, targetField, oldServerField, clientVRange,
    List.flatten_append, List.flatten_cons, List.flatten_nil, List.length_append, List.length_cons,
    List.length_nil, hserver, hkey, hid _ hmain, hid _ hrq, hid _ hreplaced]
  unfold qaddFrontLength
  dsimp only
  omega

/-- A builder that refuses returns nothing and stays in the buffer. -/
theorem not_qaddReady (h : ¬ dev.QaddReady idx) :
    dev.rotationBuildQaddPayload idx size = none ∧ (dev.qaddWritten idx size).length ≤ size := by
  constructor
  · rw [rotationBuildQaddPayload, if_pos]
    by_contra hready
    simp only [not_or, Nat.not_le, not_not, Bool.not_eq_false] at hready
    exact h hready
  · unfold qaddWritten
    by_cases hrefused : maxContacts ≤ idx ∨ (dev.record idx).state ≠ .queueCreated ∨
        dev.ourQueue.valid = false
    · rw [if_pos hrefused]
      exact Nat.zero_le _
    · have hvalid : (dev.replyQueues idx).valid = false := by
        by_contra hvalid
        simp only [not_or, Nat.not_le, not_not, Bool.not_eq_false] at hrefused
        exact h ⟨hrefused.1, hrefused.2.1, hrefused.2.2, by simpa using hvalid⟩
      rw [if_neg hrefused]
      dsimp only
      rw [if_pos (.inr hvalid)]
      exact putChunks_length_le (Nat.zero_le _) _

/-- Otherwise the fields are written as far as they fit. -/
theorem qaddWritten_of_ready (h : dev.QaddReady idx) :
    dev.qaddWritten idx size =
      if (dev.qaddFront idx).flatten.length ≤ size then
        if 0 < dev.ourQueue.sndIdLen then
          (putChunks size (dev.qaddFront idx).flatten
            [encodeSenderId dev.ourQueue.sndId dev.ourQueue.sndIdLen.toNat]).1
        else (dev.qaddFront idx).flatten ++ [0]
      else (putChunks size [] (dev.qaddFront idx)).1 := by
  obtain ⟨hidx, hstate, hour, hvalid⟩ := h
  have hsplit : putChunks size [] (dev.qaddFront idx) = _ :=
    putChunks_append [] ([[0x51, 0x41], [2]] ++ (dev.qaddMainEntry idx).take 6)
      ((dev.qaddMainEntry idx).drop 6 ++ dev.qaddRqEntry idx)
  have hfits := @putChunks_snd size [] (Nat.zero_le size) (dev.qaddFront idx)
  have hall := @putChunks_fst size [] (dev.qaddFront idx)
  rw [List.length_nil, Nat.zero_add] at hfits
  rw [List.nil_append] at hall
  simp only [← hfits]
  unfold qaddWritten
  rw [if_neg (by simp [hidx, hstate, hour])]
  dsimp only
  rw [hsplit] at hall ⊢
  generalize putChunks size [] ([[0x51, 0x41], [2]] ++ (dev.qaddMainEntry idx).take 6) = front
    at hall ⊢
  by_cases hfront : front.2 = true
  · rw [if_pos hfront] at hall ⊢
    rw [if_neg (by simp [hfront, hvalid])]
    generalize putChunks size front.1 _ = back at hall ⊢
    by_cases hback : back.2 = true
    · rw [if_pos hback, if_neg (by simp [hback]), hall hback]
    · rw [if_neg hback, if_pos (by simpa using hback)]
  · rw [if_neg hfront, if_neg hfront, if_pos (.inl (by simpa using hfront))]

/-- And returned when all of them fit. -/
theorem buildQadd_of_ready (h : dev.QaddReady idx) :
    dev.rotationBuildQaddPayload idx size =
      if (dev.qaddFront idx).flatten.length ≤ size then
        if 0 < dev.ourQueue.sndIdLen then
          putChunk size (dev.qaddFront idx).flatten
            (encodeSenderId dev.ourQueue.sndId dev.ourQueue.sndIdLen.toNat)
        else some ((dev.qaddFront idx).flatten ++ [0])
      else none := by
  obtain ⟨hidx, hstate, hour, hvalid⟩ := h
  have hfits := @putChunks_snd size [] (Nat.zero_le size) (dev.qaddFront idx)
  have hall := @putChunks_fst size [] (dev.qaddFront idx)
  rw [List.length_nil, Nat.zero_add] at hfits
  rw [List.nil_append] at hall
  rw [rotationBuildQaddPayload, if_neg (by simp [hidx, hstate, hour, hvalid])]
  simp only [← hfits]
  change (dev.qaddFront idx).foldlM (putChunk size) [] >>= _ = _
  rw [foldlM_putChunk_eq]
  by_cases hput : (putChunks size [] (dev.qaddFront idx)).2 = true
  · rw [if_pos hput, if_pos hput, hall hput]
    rfl
  · rw [if_neg hput, if_neg hput]
    rfl

/-- Everything that is written stays in the buffer exactly when an empty sender id of the
invitation does not come to lie behind it. -/
theorem qaddWritten_length_le_iff (h : dev.QaddReady idx) :
    (dev.qaddWritten idx size).length ≤ size ↔
      0 < dev.ourQueue.sndIdLen ∨ (dev.qaddFront idx).flatten.length ≠ size := by
  rw [qaddWritten_of_ready h]
  by_cases hfits : (dev.qaddFront idx).flatten.length ≤ size
  · rw [if_pos hfits]
    by_cases hid : 0 < dev.ourQueue.sndIdLen
    · rw [if_pos hid]
      exact iff_of_true (putChunks_length_le hfits _) (.inl hid)
    · rw [if_neg hid, List.length_append, List.length_singleton]
      omega
  · rw [if_neg hfits]
    exact iff_of_true (putChunks_length_le (Nat.zero_le _) _) (.inr (by omega))

/-- The payload, with the sender id of the invitation. -/
def qaddPayload (dev : RotationDevice) (idx : ℕ) : List UInt8 :=
  (dev.qaddFront idx).flatten ++
    encodeSenderId dev.ourQueue.sndId dev.ourQueue.sndIdLen.toNat

/-- The payload is returned exactly when there is room, for the last byte only if it is
checked. -/
theorem buildQadd_eq_some (h : dev.QaddReady idx) (hids : dev.QaddIds idx) {payload : List UInt8} :
    dev.rotationBuildQaddPayload idx size = some payload ↔
      payload = dev.qaddPayload idx ∧ (dev.qaddFront idx).flatten.length ≤ size ∧
        (0 < dev.ourQueue.sndIdLen →
          (dev.qaddFront idx).flatten.length + 1 + dev.ourQueue.sndIdLen.toNat ≤ size) := by
  have hlen : (encodeSenderId dev.ourQueue.sndId dev.ourQueue.sndIdLen.toNat).length =
      1 + dev.ourQueue.sndIdLen.toNat := by
    have := hids.invitation.2
    rw [encodeSenderId, List.length_cons, List.length_take, Vector.length_toList]
    omega
  rw [buildQadd_of_ready h]
  by_cases hfits : (dev.qaddFront idx).flatten.length ≤ size
  · rw [if_pos hfits]
    by_cases hid : 0 < dev.ourQueue.sndIdLen
    · rw [if_pos hid, putChunk, hlen]
      by_cases hroom : size <
          (dev.qaddFront idx).flatten.length + (1 + dev.ourQueue.sndIdLen.toNat)
      · rw [if_pos hroom]
        exact iff_of_false (Option.some_ne_none payload).symm
          fun hall => absurd (hall.2.2 hid) (by omega)
      · rw [if_neg hroom, Option.some.injEq]
        exact ⟨fun heq => ⟨heq.symm, hfits, fun _ => by omega⟩, fun hall => hall.1.symm⟩
    · have hzero : dev.ourQueue.sndIdLen = 0 := by
        have := hids.invitation.1
        omega
      have hlast : dev.qaddPayload idx = (dev.qaddFront idx).flatten ++ [0] := by
        rw [qaddPayload, hzero]
        rfl
      rw [if_neg hid, Option.some.injEq, hlast]
      exact ⟨fun heq => ⟨heq.symm, hfits, fun hpos => absurd hpos hid⟩, fun hall => hall.1.symm⟩
  · rw [if_neg hfits]
    exact iff_of_false (Option.some_ne_none payload).symm fun hall => hfits hall.2.1

/-- The payload is a tag, the count and two entries. -/
theorem qaddPayload_eq : dev.qaddPayload idx = 0x51 :: 0x41 :: 2 ::
    (encodeQaddEntry (dev.newMainQueue idx) (dev.record idx).main.e2ePublic
        (dev.replacedMainQueue idx).withPort16 ++
      encodeQaddEntry (dev.newReplyQueue idx) (dev.record idx).rq.e2ePublic
        dev.replacedReplyQueue.withPort16) := by
  simp [qaddPayload, qaddFront, qaddMainEntry, qaddRqEntry, encodeQaddEntry, HeldQueue.encode,
    HeldQueue.withPort16, targetField, oldServerField, newMainQueue, newReplyQueue,
    replacedMainQueue, replacedReplyQueue, onTargetServer, onOurServer]

/-- The payload is read back, with the old port in 16 bits. -/
theorem readQadd_payload (hids : dev.QaddIds idx) :
    readQadd (dev.qaddPayload idx) = some
      [⟨clientVRange, (dev.newMainQueue idx).address, (dev.record idx).main.e2ePublic.toList,
          (dev.replacedMainQueue idx).withPort16.address⟩,
        ⟨clientVRange, (dev.newReplyQueue idx).address, (dev.record idx).rq.e2ePublic.toList,
          dev.replacedReplyQueue.withPort16.address⟩] := by
  have hport : 0 ≤ (dev.ctx.targetPort.toNat : ℤ) ∧ (dev.ctx.targetPort.toNat : ℤ) < 65536 := by
    have := dev.ctx.targetPort.toNat_lt
    omega
  have hport16 : 0 ≤ dev.ourQueue.serverPort % 65536 ∧ dev.ourQueue.serverPort % 65536 < 65536 := by
    omega
  have hmain : (dev.newMainQueue idx).Fits := hids.main
  have hrq : (dev.newReplyQueue idx).Fits := hids.rq
  have hreplaced : (dev.replacedMainQueue idx).withPort16.Fits := Int.toNat_le.mpr hids.replaced.2
  have hinvitation : dev.replacedReplyQueue.withPort16.Fits := Int.toNat_le.mpr hids.invitation.2
  rw [qaddPayload_eq, readQadd]
  change (takeQaddEntries 2 _ >>= _) = _
  rw [takeQaddEntries, takeQaddEntry_encode _ hmain hreplaced hport hport16]
  simp only [Option.bind_eq_bind, Option.bind_some]
  rw [takeQaddEntries, ← List.append_nil (encodeQaddEntry (dev.newReplyQueue idx) _ _),
    takeQaddEntry_encode _ hrq hinvitation hport hport16]
  rfl

/-- The entries are those that the QADD should carry exactly when our port has 16 bits. -/
theorem readQadd_right_iff (hids : dev.QaddIds idx) :
    readQadd (dev.qaddPayload idx) = some (dev.qaddEntries idx) ↔
      0 ≤ dev.ourQueue.serverPort ∧ dev.ourQueue.serverPort < 65536 := by
  rw [readQadd_payload hids]
  constructor
  · intro h
    have hentries := Option.some.inj h
    have hport := congrArg (fun e => e.replaced.port) (List.cons.inj hentries).1
    change dev.ourQueue.serverPort % 65536 = dev.ourQueue.serverPort at hport
    omega
  · rintro ⟨hlow, hhigh⟩
    have hport : dev.ourQueue.serverPort % 65536 = dev.ourQueue.serverPort :=
      Int.emod_eq_of_lt hlow hhigh
    have hmain : (dev.replacedMainQueue idx).withPort16 = dev.replacedMainQueue idx := by
      rw [HeldQueue.withPort16, replacedMainQueue, onOurServer, hport]
    have hrq : dev.replacedReplyQueue.withPort16 = dev.replacedReplyQueue := by
      rw [HeldQueue.withPort16, replacedReplyQueue, onOurServer, hport]
    rw [hmain, hrq]
    rfl

/-- The builder does what it should exactly under the condition. -/
theorem qadd_right_iff (hids : dev.QaddIds idx) (size : ℕ) :
    dev.QaddRight idx size ↔ dev.QaddFits idx size := by
  by_cases hready : dev.QaddReady idx
  · have hfront := qaddFront_length hids
    constructor
    · intro hright _ _ _ _
      refine ⟨?_, fun hroom => ?_⟩
      · rw [← hfront]
        exact (qaddWritten_length_le_iff hready).mp hright.bounded
      · rw [← hfront] at hroom
        have hbuilt := (buildQadd_eq_some hready hids).mpr
          ⟨rfl, by omega, fun _ => hroom⟩
        exact (readQadd_right_iff hids).mp (hright.returned _ hbuilt).2
    · intro hfits
      obtain ⟨hlast, hport⟩ := hfits hready.1 hready.2.1 hready.2.2.1 hready.2.2.2
      rw [← hfront] at hlast hport
      refine ⟨(qaddWritten_length_le_iff hready).mpr hlast, fun payload hbuilt => ?_⟩
      obtain ⟨rfl, hroom, hid⟩ := (buildQadd_eq_some hready hids).mp hbuilt
      have hlength : (dev.qaddPayload idx).length =
          (dev.qaddFront idx).flatten.length + 1 + dev.ourQueue.sndIdLen.toNat := by
        have := hids.invitation.2
        rw [qaddPayload, List.length_append, encodeSenderId, List.length_cons, List.length_take,
          Vector.length_toList]
        omega
      have hall : (dev.qaddFront idx).flatten.length + 1 + dev.ourQueue.sndIdLen.toNat ≤ size := by
        rcases Int.lt_or_le 0 dev.ourQueue.sndIdLen with hpos | hzero
        · exact hid hpos
        · have := hlast.resolve_left (by omega)
          omega
      exact ⟨by omega, (readQadd_right_iff hids).mpr (hport hall)⟩
  · obtain ⟨hnone, hbounded⟩ := not_qaddReady hready
    refine iff_of_true ⟨hbounded, fun payload hbuilt => ?_⟩ fun hidx hstate hour hvalid => ?_
    · rw [hnone] at hbuilt
      cases hbuilt
    · exact absurd ⟨hidx, hstate, hour, hvalid⟩ hready

end RotationDevice

/-- A device in a rotation whose only contact has its new queues. -/
def sampleQadd : RotationDevice :=
  { sampleRotation with
    ctx := { RotationContext.zero with active := true, targetPort := 5223 }
    replyQueues := fun _ => { ReplyQueue.zero with valid := true, sndIdLen := 24 }
    records := some fun _ =>
      { RotationContactData.zero with
        state := .queueCreated
        main := { NewQueue.zero with sndIdLen := 24 }
        rq := { NewQueue.zero with sndIdLen := 24 } } }

/-- The same device, with an empty sender id in its invitation. -/
def sampleQaddEmpty : RotationDevice :=
  { sampleQadd with ourQueue := { sampleQadd.ourQueue with sndIdLen := 0 } }

/-- Its QADD in a buffer of 1024 bytes. -/
theorem qadd_right_sample : sampleQadd.QaddRight 0 1024 :=
  (RotationDevice.qadd_right_iff ⟨by decide, by decide, by decide, by decide⟩ 1024).mpr
    fun _ _ _ _ => ⟨.inl (by decide), fun _ => by decide⟩

set_option maxRecDepth 8192 in
/-- A buffer that is full in front of an empty sender id: its length byte is written behind it. -/
theorem qadd_written_behind_buffer :
    sampleQaddEmpty.QaddIds 0 ∧
      sampleQaddEmpty.rotationBuildQaddPayload 0 340 = some (sampleQaddEmpty.qaddPayload 0) ∧
      ¬ sampleQaddEmpty.QaddRight 0 340 := by
  refine ⟨⟨by decide, by decide, by decide, by decide⟩, by decide, fun h => ?_⟩
  exact absurd h.bounded (by decide)

end SimpleGo
