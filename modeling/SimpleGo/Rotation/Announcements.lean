import SimpleGo.Rotation.AppTask

/-!
# What a contact reads

A QADD, a QUSE and the queue info of a confirmation as the contact reads them: the address of
the queue to send to, the key to encrypt with, and in a QADD the address of the queue that is
replaced. What the firmware writes is read back.
-/

namespace SimpleGo

open Lib

/-! ### Reading -/

/-- The first entry of a QADD up to its key: the new queue, the SPKI form of the key, and what
follows. -/
def readQaddHead : List UInt8 → Option (SndQAddr × List UInt8 × List UInt8)
  | 0x51 :: 0x41 :: _ :: _ :: _ :: _ :: _ :: rest => do
    let (addr, rest) ← takeSndQAddr rest
    let (spki, rest) ← takeShort rest
    some (addr, spki, rest)
  | _ => none

/-- The key in the first entry of a QADD. -/
def qaddDhKey (payload : List UInt8) : Option (List UInt8) :=
  (readQaddHead payload).map fun head => head.2.1.drop 12

/-- The replaced queue in the first entry of a QADD. -/
def qaddReplaced (payload : List UInt8) : Option SndQAddr :=
  (readQaddHead payload).bind fun head =>
    match head.2.2 with
    | 0x31 :: rest => (takeSndQAddr rest).map Prod.fst
    | _ => none

/-- The queue that a QUSE names. -/
def quseAddr : List UInt8 → Option SndQAddr
  | 0x51 :: 0x55 :: _ :: rest => (takeSndQAddr rest).map Prod.fst
  | _ => none

/-- The queue in the queue info of a confirmation, behind its version. -/
def infoAddr : List UInt8 → Option SndQAddr
  | _ :: _ :: rest => (takeSndQAddr rest).map Prod.fst
  | _ => none

/-! ### What is written is read back -/

/-- Chunks that fit are appended in order. -/
theorem foldlM_putChunk {size : ℕ} {chunks : List (List UInt8)} {buf out : List UInt8}
    (h : chunks.foldlM (RotationDevice.putChunk size) buf = some out) :
    out = buf ++ chunks.flatten := by
  induction chunks generalizing buf with
  | nil =>
    obtain rfl := Option.some.inj h
    simp
  | cons chunk chunks ih =>
    rw [List.foldlM_cons] at h
    obtain ⟨next, hput, hrest⟩ := Option.bind_eq_some_iff.1 h
    rw [RotationDevice.putChunk] at hput
    split at hput
    · cases hput
    · obtain rfl := Option.some.inj hput
      rw [ih hrest, List.flatten_cons, List.append_assoc]

/-- Chunks with room for all of them fit. -/
theorem foldlM_putChunk_of_le {size : ℕ} {chunks : List (List UInt8)} {buf : List UInt8}
    (h : buf.length + chunks.flatten.length ≤ size) :
    chunks.foldlM (RotationDevice.putChunk size) buf = some (buf ++ chunks.flatten) := by
  induction chunks generalizing buf with
  | nil => simp
  | cons chunk chunks ih =>
    rw [List.flatten_cons, List.length_append] at h
    rw [List.foldlM_cons, RotationDevice.putChunk, if_neg (by omega), Option.bind_eq_bind,
      Option.bind_some, ih (by rw [List.length_append]; omega), List.flatten_cons,
      List.append_assoc]

/-- An encoded server is at most 107 bytes long. -/
theorem encodeSmpServer_length_le (host : Bytes 64) (port : ℤ) (keyHash : Bytes 32) :
    (encodeSmpServer host port keyHash).length ≤ 107 := by
  have hhost := cString_length_le host
  have hport := portString_length_le port
  simp only [encodeSmpServer, shortString, List.length_cons, List.length_append,
    Vector.length_toList]
  omega

namespace RotationDevice

variable {dev : RotationDevice} {idx size : ℕ} {payload : List UInt8}

/-- A QADD that is built starts with its first entry. -/
theorem rotationBuildQaddPayload_eq (h : dev.rotationBuildQaddPayload idx size = some payload) :
    idx < maxContacts ∧ (dev.record idx).state = .queueCreated ∧
      (dev.replyQueues idx).valid = true ∧
      ∃ rest, payload = 0x51 :: 0x41 :: 2 :: ((dev.qaddMainEntry idx).flatten ++ rest) := by
  rw [rotationBuildQaddPayload] at h
  split at h
  · cases h
  · rename_i hguard
    simp only [not_or, Nat.not_le, Bool.not_eq_false] at hguard
    refine ⟨hguard.1, not_not.1 hguard.2.1, hguard.2.2.2, ?_⟩
    obtain ⟨buf, hbuf, hrest⟩ := Option.bind_eq_some_iff.1 h
    have hchunks := foldlM_putChunk hbuf
    have hmore : ∃ tail, payload = buf ++ tail := by
      split at hrest
      · rw [putChunk] at hrest
        split at hrest
        · cases hrest
        · exact ⟨_, (Option.some.inj hrest).symm⟩
      · exact ⟨_, (Option.some.inj hrest).symm⟩
    obtain ⟨tail, rfl⟩ := hmore
    refine ⟨(dev.qaddRqEntry idx).flatten ++ tail, ?_⟩
    rw [hchunks]
    simp only [List.flatten_append, List.append_assoc]
    rfl

/-- The first entry of a QADD as the contact reads it. -/
theorem readQaddHead_built (h : dev.rotationBuildQaddPayload idx size = some payload)
    (hlen : (dev.record idx).main.sndIdLen.toNat ≤ 24) : ∃ rest, readQaddHead payload =
      some (queueAddr dev.ctx.targetHost dev.ctx.targetPort.toNat dev.ctx.targetKeyHash
          (dev.record idx).main.sndId (dev.record idx).main.sndIdLen.toNat,
        x25519SpkiHdr ++ (dev.record idx).main.e2ePublic.toList,
        0x31 :: (dev.oldServerField ++ encodeSenderId (dev.replyQueues idx).sndId
          (dev.replyQueues idx).sndIdLen.toNat ++ rest)) := by
  obtain ⟨-, -, -, rest, rfl⟩ := rotationBuildQaddPayload_eq h
  refine ⟨rest, ?_⟩
  have hdh : dhPublicKeyField (dev.record idx).main.e2ePublic =
      shortString (x25519SpkiHdr ++ (dev.record idx).main.e2ePublic.toList) := by
    have hspki : (x25519SpkiHdr ++ (dev.record idx).main.e2ePublic.toList).length = 44 := by
      rw [List.length_append, Vector.length_toList]
      rfl
    rw [shortString, hspki]
    rfl
  have hchunks : (dev.qaddMainEntry idx).flatten ++ rest = 0 :: 1 :: 0 :: 4 ::
      (encodeSmpServer dev.ctx.targetHost dev.ctx.targetPort.toNat dev.ctx.targetKeyHash ++
        encodeSenderId (dev.record idx).main.sndId (dev.record idx).main.sndIdLen.toNat ++
        (shortString (x25519SpkiHdr ++ (dev.record idx).main.e2ePublic.toList) ++
          0x31 :: (dev.oldServerField ++ encodeSenderId (dev.replyQueues idx).sndId
            (dev.replyQueues idx).sndIdLen.toNat ++ rest))) := by
    rw [← hdh]
    simp [qaddMainEntry, clientVRange, targetField]
  rw [hchunks, readQaddHead, takeSndQAddr_encode _ _ _ _ hlen]
  simp only [Option.bind_eq_bind, Option.bind_some]
  rw [takeShort_shortString _ _ (by rw [List.length_append, Vector.length_toList]; decide)]
  rfl

/-- The key in a QADD is the one of the new main queue. -/
theorem qaddDhKey_built (h : dev.rotationBuildQaddPayload idx size = some payload)
    (hlen : (dev.record idx).main.sndIdLen.toNat ≤ 24) :
    qaddDhKey payload = some (dev.record idx).main.e2ePublic.toList := by
  obtain ⟨rest, hhead⟩ := readQaddHead_built h hlen
  rw [qaddDhKey, hhead]
  rfl

/-- The replaced queue in a QADD is on the server of our queues, with the sender id of the
contact's reply queue. -/
theorem qaddReplaced_built (h : dev.rotationBuildQaddPayload idx size = some payload)
    (hlen : (dev.record idx).main.sndIdLen.toNat ≤ 24)
    (hrq : (dev.replyQueues idx).sndIdLen.toNat ≤ 24) :
    qaddReplaced payload = some (queueAddr dev.ourQueue.serverHost (dev.ourQueue.serverPort % 65536)
      dev.ourQueue.serverKeyHash (dev.replyQueues idx).sndId
      (dev.replyQueues idx).sndIdLen.toNat) := by
  obtain ⟨rest, hhead⟩ := readQaddHead_built h hlen
  rw [qaddReplaced, hhead]
  simp only [Option.bind_some, oldServerField]
  rw [takeSndQAddr_encode _ _ _ _ hrq]
  rfl

/-- A QUSE names the new main queue. -/
theorem quseAddr_built (h : dev.rotationBuildQusePayload idx size = some payload)
    (hlen : (dev.record idx).main.sndIdLen.toNat ≤ 24) :
    quseAddr payload = some (queueAddr dev.ctx.targetHost dev.ctx.targetPort.toNat
      dev.ctx.targetKeyHash (dev.record idx).main.sndId (dev.record idx).main.sndIdLen.toNat) := by
  rw [rotationBuildQusePayload] at h
  split at h
  · cases h
  · have hpayload : payload = 0x51 :: 0x55 :: 1 :: (encodeSmpServer dev.ctx.targetHost
        dev.ctx.targetPort.toNat dev.ctx.targetKeyHash ++
        encodeSenderId (dev.record idx).main.sndId (dev.record idx).main.sndIdLen.toNat ++
        [0x54]) := by
      rw [foldlM_putChunk h]
      simp [targetField]
    rw [hpayload, quseAddr, takeSndQAddr_encode _ _ _ _ hlen]
    rfl

/-- A confirmation names the contact's reply queue. -/
theorem infoAddr_encoded {maxLen : ℕ} (h : dev.replyQueueEncodeInfo idx maxLen = some payload)
    (hrq : (dev.replyQueues idx).sndIdLen.toNat ≤ 24) :
    infoAddr payload = some (queueAddr dev.ourQueue.serverHost dev.ourQueue.serverPort
      dev.ourQueue.serverKeyHash (dev.replyQueues idx).sndId
      (dev.replyQueues idx).sndIdLen.toNat) := by
  rw [replyQueueEncodeInfo] at h
  split at h
  · cases h
  · obtain ⟨buf, hbuf, hrest⟩ := Option.bind_eq_some_iff.1 h
    rw [putChunk] at hrest
    split at hrest
    · cases hrest
    · obtain rfl := Option.some.inj hrest
      have hpayload : buf ++ dhPublicKeyField (dev.replyQueues idx).e2ePublic = 0 :: 4 ::
          (encodeSmpServer dev.ourQueue.serverHost dev.ourQueue.serverPort
            dev.ourQueue.serverKeyHash ++ encodeSenderId (dev.replyQueues idx).sndId
            (dev.replyQueues idx).sndIdLen.toNat ++
            dhPublicKeyField (dev.replyQueues idx).e2ePublic) := by
        rw [foldlM_putChunk hbuf]
        simp
      rw [hpayload, infoAddr, takeSndQAddr_encode _ _ _ _ hrq]
      rfl

/-- A valid reply queue can be encoded. -/
theorem replyQueueEncodeInfo_isSome (hidx : idx < maxContacts)
    (hvalid : (dev.replyQueues idx).valid = true) (hour : dev.ourQueue.valid = true)
    (hrq : (dev.replyQueues idx).sndIdLen.toNat ≤ 24) :
    (dev.replyQueueEncodeInfo idx 510).isSome = true := by
  have hserver := encodeSmpServer_length_le dev.ourQueue.serverHost dev.ourQueue.serverPort
    dev.ourQueue.serverKeyHash
  have hid : (encodeSenderId (dev.replyQueues idx).sndId
      (dev.replyQueues idx).sndIdLen.toNat).length ≤ 25 := by
    simp only [encodeSenderId, List.length_cons, List.length_take]
    omega
  have hdh : (dhPublicKeyField (dev.replyQueues idx).e2ePublic).length = 45 := by
    simp [dhPublicKeyField, x25519SpkiHdr]
  rw [replyQueueEncodeInfo, if_neg (by simp [hvalid, hour, hidx]), foldlM_putChunk_of_le]
  · rw [Option.bind_eq_bind, Option.bind_some, putChunk, if_neg]
    · rfl
    · simp only [List.nil_append, List.flatten_cons, List.flatten_nil, List.length_append,
        List.length_cons, List.length_nil]
      omega
  · simp only [List.flatten_cons, List.flatten_nil, List.length_append, List.length_cons,
      List.length_nil]
    omega

end RotationDevice

end SimpleGo
