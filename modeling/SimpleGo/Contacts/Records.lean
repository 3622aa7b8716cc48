import SimpleGo.Lib.Memory

/-!
# What is stored for a contact

The structs the firmware keeps for each of its 128 contact slots, outside the ratchet: the
contact record, its peer queue, its reply queue, and the part of the handshake entry that is
kept across reboots. `OurQueue` is the one queue of the device. C strings are their arrays.
-/

namespace SimpleGo

open Lib

/-- `contact_t`. -/
structure Contact where
  name : Bytes 32
  rcvAuthSecret : Bytes 64
  rcvAuthPublic : Bytes 32
  rcvDhSecret : Bytes 32
  rcvDhPublic : Bytes 32
  recipientId : Bytes 24
  recipientIdLen : UInt8
  senderId : Bytes 24
  senderIdLen : UInt8
  srvDhPublic : Bytes 32
  haveSrvDh : UInt8
  active : UInt8
  deriving DecidableEq

/-- A zeroed record. -/
def Contact.zero : Contact where
  name := zeroBytes 32
  rcvAuthSecret := zeroBytes 64
  rcvAuthPublic := zeroBytes 32
  rcvDhSecret := zeroBytes 32
  rcvDhPublic := zeroBytes 32
  recipientId := zeroBytes 24
  recipientIdLen := 0
  senderId := zeroBytes 24
  senderIdLen := 0
  srvDhPublic := zeroBytes 32
  haveSrvDh := 0
  active := 0

/-- The slot is in use. -/
def Contact.isActive (c : Contact) : Bool := c.active ≠ 0

@[simp] theorem Contact.zero_isActive : Contact.zero.isActive = false := rfl

/-- `peer_queue_t`. -/
structure PeerQueue where
  host : Bytes 64
  port : Int
  keyHash : Bytes 32
  keyHashB64 : Bytes 48
  queueId : Bytes 32
  queueIdLen : Int
  dhPublic : Bytes 32
  hasDh : Int
  e2eKey1 : Bytes 56
  e2eKey2 : Bytes 56
  hasE2e : Int
  valid : Int
  deriving DecidableEq

/-- The first byte of the host: zero where there is no name. -/
def PeerQueue.hostStart (p : PeerQueue) : UInt8 := p.host[0]

/-- A zeroed peer queue. -/
def PeerQueue.zero : PeerQueue where
  host := zeroBytes 64
  port := 0
  keyHash := zeroBytes 32
  keyHashB64 := zeroBytes 48
  queueId := zeroBytes 32
  queueIdLen := 0
  dhPublic := zeroBytes 32
  hasDh := 0
  e2eKey1 := zeroBytes 56
  e2eKey2 := zeroBytes 56
  hasE2e := 0
  valid := 0

/-- `reply_queue_t`. -/
structure ReplyQueue where
  rcvId : Bytes 24
  rcvIdLen : Int
  sndId : Bytes 24
  sndIdLen : Int
  srvDhPublic : Bytes 32
  rcvAuthPublic : Bytes 32
  rcvAuthPrivate : Bytes 64
  rcvDhPublic : Bytes 32
  rcvDhPrivate : Bytes 32
  e2ePublic : Bytes 32
  e2ePrivate : Bytes 32
  sharedSecret : Bytes 32
  e2ePeerPublic : Bytes 32
  e2ePeerValid : Bool
  valid : Bool
  peerDhSecret : Bytes 32
  peerDhPublic : Bytes 32
  hasPeerDh : Bool
  peerAuthPrivate : Bytes 64
  peerAuthPublic : Bytes 32
  hasPeerAuth : Bool
  deriving DecidableEq

/-- A zeroed reply queue. -/
def ReplyQueue.zero : ReplyQueue where
  rcvId := zeroBytes 24
  rcvIdLen := 0
  sndId := zeroBytes 24
  sndIdLen := 0
  srvDhPublic := zeroBytes 32
  rcvAuthPublic := zeroBytes 32
  rcvAuthPrivate := zeroBytes 64
  rcvDhPublic := zeroBytes 32
  rcvDhPrivate := zeroBytes 32
  e2ePublic := zeroBytes 32
  e2ePrivate := zeroBytes 32
  sharedSecret := zeroBytes 32
  e2ePeerPublic := zeroBytes 32
  e2ePeerValid := false
  valid := false
  peerDhSecret := zeroBytes 32
  peerDhPublic := zeroBytes 32
  hasPeerDh := false
  peerAuthPrivate := zeroBytes 64
  peerAuthPublic := zeroBytes 32
  hasPeerAuth := false

/-- The counters of `handshake_entry_t`: the next agent message id and the hash before it. -/
structure HandshakeEntry where
  msgId : UInt64
  prevMsgHash : Bytes 32
  deriving DecidableEq

/-- A zeroed entry. -/
def HandshakeEntry.zero : HandshakeEntry := ⟨0, zeroBytes 32⟩

/-- `our_queue_t`. -/
structure OurQueue where
  rcvId : Bytes 24
  rcvIdLen : Int
  sndId : Bytes 24
  sndIdLen : Int
  srvDhPublic : Bytes 32
  rcvAuthPublic : Bytes 32
  rcvAuthPrivate : Bytes 64
  rcvDhPublic : Bytes 32
  rcvDhPrivate : Bytes 32
  e2ePublic : Bytes 32
  e2ePrivate : Bytes 32
  sharedSecret : Bytes 32
  serverHost : Bytes 64
  serverPort : Int
  serverKeyHash : Bytes 32
  valid : Bool
  deriving DecidableEq

end SimpleGo
