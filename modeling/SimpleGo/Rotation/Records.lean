import SimpleGo.Contacts.Records
import SimpleGo.Lib.Strings

/-!
# The records of a queue rotation

A rotation moves every contact to queues on another server. Its context names the target
server; its record for a contact holds the two queues made there, the main queue and the
reply queue, and what the contact has answered. The messages of a rotation carry queue
addresses, which are written here as the firmware writes them and read as the peer reads them.
-/

namespace SimpleGo

open Lib

/-- `rotation_contact_state_t`. -/
inductive RotationContactState where
  | idle | queueCreated | qaddSent | qkeyReceived | keySent | quseSent | qtestSent | done | error
  | waiting
  deriving DecidableEq

/-- The fields of one new queue: `new_*` for the main queue, `rq_new_*` for the reply queue. -/
structure NewQueue where
  rcvId : Bytes 24
  rcvIdLen : UInt8
  sndId : Bytes 24
  sndIdLen : UInt8
  rcvAuthPublic : Bytes 32
  rcvAuthPrivate : Bytes 64
  rcvDhPublic : Bytes 32
  rcvDhPrivate : Bytes 32
  e2ePublic : Bytes 32
  e2ePrivate : Bytes 32
  srvDhPublic : Bytes 32
  sharedSecret : Bytes 32
  deriving DecidableEq

/-- What a QKEY says about one new queue. -/
structure QkeyEntry where
  peerSenderKey : Bytes 44
  hasPeerSenderKey : Bool
  peerE2ePublic : Bytes 32
  hasPeerE2ePublic : Bool
  deriving DecidableEq

/-- `rotation_contact_data_t`. -/
structure RotationContactData where
  state : RotationContactState
  main : NewQueue
  rq : NewQueue
  rqCreated : Bool
  mainPeer : QkeyEntry
  rqPeer : QkeyEntry
  deriving DecidableEq

/-- `rotation_context_t`; the rotation is active or idle. -/
structure RotationContext where
  active : Bool
  targetServerIdx : UInt8
  targetHost : Bytes 64
  targetPort : UInt16
  targetKeyHash : Bytes 32
  contactsTotal : UInt8
  contactsDone : UInt8
  oldHost : Bytes 64
  oldPort : UInt16
  deriving DecidableEq

/-- `smp_server_t`. -/
structure SmpServer where
  host : Bytes 64
  port : UInt16
  keyHash : Bytes 32
  deriving DecidableEq

/-- Zeroed fields. -/
def NewQueue.zero : NewQueue where
  rcvId := zeroBytes 24
  rcvIdLen := 0
  sndId := zeroBytes 24
  sndIdLen := 0
  rcvAuthPublic := zeroBytes 32
  rcvAuthPrivate := zeroBytes 64
  rcvDhPublic := zeroBytes 32
  rcvDhPrivate := zeroBytes 32
  e2ePublic := zeroBytes 32
  e2ePrivate := zeroBytes 32
  srvDhPublic := zeroBytes 32
  sharedSecret := zeroBytes 32

/-- Zeroed fields. -/
def QkeyEntry.zero : QkeyEntry := ⟨zeroBytes 44, false, zeroBytes 32, false⟩

/-- A zeroed record. -/
def RotationContactData.zero : RotationContactData :=
  ⟨.idle, .zero, .zero, false, .zero, .zero⟩

/-- A zeroed context. -/
def RotationContext.zero : RotationContext where
  active := false
  targetServerIdx := 0
  targetHost := zeroBytes 64
  targetPort := 0
  targetKeyHash := zeroBytes 32
  contactsTotal := 0
  contactsDone := 0
  oldHost := zeroBytes 64
  oldPort := 0

/-! ### Queue addresses on the wire -/

/-- The address of a queue, as the contact that sends to it knows it. -/
structure SndQAddr where
  host : List UInt8
  port : List UInt8
  keyHash : List UInt8
  senderId : List UInt8
  deriving DecidableEq

/-- `snprintf(port_str, sizeof(port_str), "%d", port)` into eight bytes. -/
def portString (port : ℤ) : List UInt8 :=
  ((toString port).toList.map fun c => UInt8.ofNat c.toNat).take 7

/-- `encode_smp_server` without its length check: one host, the port and the key hash. -/
def encodeSmpServer (host : Bytes 64) (port : ℤ) (keyHash : Bytes 32) : List UInt8 :=
  1 :: (shortString (cString host) ++ shortString (portString port) ++
    shortString keyHash.toList)

/-- A sender id behind its length byte. -/
def encodeSenderId (id : Bytes 24) (len : ℕ) : List UInt8 :=
  UInt8.ofNat len :: id.toList.take len

/-- The address of a queue with this sender id on a server. -/
def queueAddr (host : Bytes 64) (port : ℤ) (keyHash : Bytes 32) (id : Bytes 24) (len : ℕ) :
    SndQAddr where
  host := cString host
  port := portString port
  keyHash := keyHash.toList
  senderId := id.toList.take len

/-- How a contact reads `sndQueueAddr`. -/
def takeSndQAddr : List UInt8 → Option (SndQAddr × List UInt8)
  | 1 :: rest => do
    let (host, rest) ← takeShort rest
    let (port, rest) ← takeShort rest
    let (keyHash, rest) ← takeShort rest
    let (senderId, rest) ← takeShort rest
    some (⟨host, port, keyHash, senderId⟩, rest)
  | _ => none

/-- A port string fits its buffer. -/
theorem portString_length_le (port : ℤ) : (portString port).length ≤ 7 := List.length_take_le ..

/-- A written address is read back, with what follows it. -/
theorem takeSndQAddr_encode (host : Bytes 64) (port : ℤ) (keyHash : Bytes 32) (id : Bytes 24)
    {len : ℕ} (hlen : len ≤ 24) (rest : List UInt8) :
    takeSndQAddr (encodeSmpServer host port keyHash ++ encodeSenderId id len ++ rest) =
      some (queueAddr host port keyHash id len, rest) := by
  have hid : encodeSenderId id len = shortString (id.toList.take len) := by
    simp [encodeSenderId, shortString, Nat.min_eq_left hlen]
  have hhost := cString_length_le host
  have hport := portString_length_le port
  have hhash : keyHash.toList.length = 32 := keyHash.length_toList
  have htake : (id.toList.take len).length ≤ len := List.length_take_le ..
  rw [hid, encodeSmpServer]
  simp only [List.cons_append, List.append_assoc, takeSndQAddr]
  rw [takeShort_shortString _ _ (by omega)]
  simp only [Option.bind_eq_bind, Option.bind_some]
  rw [takeShort_shortString _ _ (by omega)]
  simp only [Option.bind_some]
  rw [takeShort_shortString _ _ (by omega)]
  simp only [Option.bind_some]
  rw [takeShort_shortString _ _ (by omega)]
  rfl

end SimpleGo
