import SimpleGo.Lib.Runs
import SimpleGo.Rotation.Messages

/-!
# Acknowledged messages during a rotation

The server deletes a message when it is acknowledged, so a message has to be decrypted before
that, and a chat message has to be passed on. While a contact is in QUSE_SENT every MSG on its
own queue is taken for the QTEST and acknowledged unread. This is right when the message is
the QTEST, and when the queue is the new one; until the live switch it is the old one.
-/

namespace SimpleGo

open Lib

/-! ### Chat messages -/

/-- The queue of a contact is the one the rotation made for it. -/
def RotationDevice.onNewQueue (dev : RotationDevice) (idx : ℕ) : Bool :=
  dev.contactQueueId idx ==
    (dev.record idx).main.rcvId.toList.take (dev.record idx).main.rcvIdLen.toNat

/-- The message is the peer's QTEST, on the new queue. -/
def IsQtest (dev : RotationDevice) : RotationLabel → Prop
  | .contactMsg idx env => env.peerQtest = true ∧ dev.onNewQueue idx = true
  | _ => False

/-- The message was handed to decryption, and a chat message to the UI and to the history. -/
structure Processed (effects : List MsgEffect) : Prop where
  handed : (∃ key, .e2eDecrypt key ∈ effects) ∨ .smpDecrypt ∈ effects
  stored : ∀ body, .decrypted body ∈ effects → ∀ text, chatText body = some text →
    .notifyUi text ∈ effects ∧ .historyAppend (text.take historyMaxText) ∈ effects

/-- What comes before an acknowledgement is enough, unless the message is a QTEST. -/
def NothingLost (X : Sodium) (dev : RotationDevice) (label : RotationLabel) : Prop :=
  ∀ before queue after, (dev.handleMsg X label).2 = before ++ .ack queue :: after →
    IsQtest dev label ∨ Processed before

variable {X : Sodium} {dev : RotationDevice} {label : RotationLabel}

/-- The secret of the full pipeline on a contact's queue; without one the server layer is
tried alone. -/
def RotationDevice.pipelineSecret (X : Sodium) (dev : RotationDevice) (idx : ℕ) (env : MsgEnv) :
    Option (Bytes 32) :=
  if env.handshakeDone then X.beforenm (dev.contacts idx).srvDhPublic (dev.contacts idx).rcvDhSecret
  else none

/-- What is done with a message on a contact's queue before the acknowledgement, when it is not
taken for a QTEST. -/
def RotationDevice.readEffects (X : Sodium) (dev : RotationDevice) (idx : ℕ) (env : MsgEnv) :
    List MsgEffect :=
  match dev.pipelineSecret X idx env with
  | none => if env.plainAlloc then [.smpDecrypt] else []
  | some shared => .e2eDecrypt dev.ourQueue.e2ePrivate ::
    match env.e2e shared dev.ourQueue.e2ePrivate with
    | none => if env.plainAlloc then [.smpDecrypt] else []
    | some plain => smpAgentProcessMessage plain env.toAgentEnv

/-- What is done with a message is followed by one acknowledgement. -/
theorem contactQueueEffects_eq (idx : ℕ) (env : MsgEnv) :
    dev.contactQueueEffects X idx env =
      dev.readEffects X idx env ++ [.ack (dev.contactQueueId idx)] := by
  rw [RotationDevice.contactQueueEffects, RotationDevice.readEffects,
    RotationDevice.pipelineSecret]
  cases env.handshakeDone with
  | false => rfl
  | true =>
    rw [if_neg (by simp), if_pos rfl]
    cases X.beforenm (dev.contacts idx).srvDhPublic (dev.contacts idx).rcvDhSecret with
    | none => rfl
    | some shared =>
      dsimp only
      cases env.e2e shared dev.ourQueue.e2ePrivate <;> rfl

/-- Arrays of one byte. -/
def filled (n : ℕ) (b : UInt8) : Bytes n := Vector.replicate n b

/-- A stand-in for X25519. -/
def sampleSodium : Sodium := ⟨fun key => key, fun _ key => some key⟩

/-- The queue of a device on the server `a`. -/
def sampleOurQueue : OurQueue where
  rcvId := filled 24 1
  rcvIdLen := 24
  sndId := filled 24 2
  sndIdLen := 24
  srvDhPublic := filled 32 3
  rcvAuthPublic := filled 32 4
  rcvAuthPrivate := filled 64 5
  rcvDhPublic := filled 32 6
  rcvDhPrivate := filled 32 7
  e2ePublic := filled 32 8
  e2ePrivate := filled 32 9
  sharedSecret := filled 32 10
  serverHost := strncpy 63 [0x61]
  serverPort := 5223
  serverKeyHash := filled 32 11
  valid := true

/-- The server `b`. -/
def sampleTarget : SmpServer := ⟨strncpy 63 [0x62], 5223, filled 32 12⟩

/-- Keys for a new queue. -/
def sampleKeys (b : UInt8) : NewQueueKeys := ⟨filled 32 b, filled 64 b, filled 32 b, filled 32 b⟩

/-- Ids of a new queue. -/
def sampleIds (b : UInt8) : NewQueueIds := ⟨filled 24 b, 24, filled 24 (b + 1), 24, filled 32 b⟩

/-- A contact is added. -/
def sampleAdd (b : UInt8) : RotationLabel :=
  .addContact ⟨filled 32 b, filled 64 b, filled 32 b, filled 32 b, filled 32 b⟩
    ⟨filled 24 b, 24, filled 24 b, 24, filled 32 b, 1⟩ (sampleKeys b) (some (sampleIds b))

/-- A pass of the loop in which everything works, with keys of its own for every slot. -/
def samplePass (b : UInt8) : RotationLabel :=
  .appStep fun i => ⟨sampleKeys (b + UInt8.ofNat i), sampleKeys (b + UInt8.ofNat i + 60), true,
    some (sampleIds (b + UInt8.ofNat i)), some (sampleIds (b + UInt8.ofNat i + 60)), true, true,
    .sent⟩

/-- A message with this agent body, sent to a contact's own queue. -/
def sampleMsg (body : List UInt8) (peerQtest : Bool) : MsgEnv where
  ratchetInitialized := true
  ratchet := some body
  jsonAlloc := true
  encLen := 100
  handshakeDone := true
  e2e := fun _ _ => some ⟨memOf [0, 24, 0x5F, 0, 0, 0x4D] fun _ => 0, 24⟩
  newPeer := none
  plainAlloc := true
  peerQtest := peerQtest

/-- The body of a QKEY: the key of the new queue and the sender key. -/
def sampleQkey : List UInt8 :=
  0x4D :: List.replicate 9 0 ++ [0x51, 0x4B] ++ [1, 0, 1, 0, 0, 0, 0, 44] ++
    RotationDevice.x25519SpkiHdr ++ List.replicate 32 13 ++ 44 :: List.replicate 44 14

/-- The body of a chat message, with the text `hi`. -/
def sampleChat : List UInt8 :=
  0x4D :: List.replicate 9 0 ++ [0x4D] ++ textKey ++ [0x68, 0x69, 0x22]

/-- A rotation up to the QUSE of its only contact. -/
def rotationToQuse : List RotationLabel :=
  [sampleAdd 20, .start 1 sampleTarget, samplePass 30, samplePass 30,
    .contactMsg 0 (sampleMsg sampleQkey false), samplePass 30]

/-- The device of the examples. -/
def sampleRotation : RotationDevice := .fresh sampleOurQueue 2

end SimpleGo
