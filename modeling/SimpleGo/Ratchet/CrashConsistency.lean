import SimpleGo.Lib.Runs
import SimpleGo.Ratchet.Encrypt
import SimpleGo.Ratchet.FailedDecrypt

/-!
# Power loss during a ratchet operation

A call writes the ratchet blob and up to eight PQ blobs, one after the other. A power loss
leaves the store after some of these writes, and the next start loads whatever is there.
`CrashConsistent` asks that this is the state before the call or the state after it, and that
a completed call is loaded back exactly.

The ratchet blob alone is atomic. A saved KEM step is not: between the writes of the public
and the secret half of the new key pair the store holds halves of two pairs. What the crypto
task writes for a request that timed out is not saved at all.
-/

namespace SimpleGo

open Lib

variable {K : Type}

/-! ## Loading after a write -/

/-- A call of either operation with the environment's choices, or late requests that the
crypto task carries out between two calls. -/
inductive RatchetCall where
  | encrypt (enabled cleanup : Bool) (plaintext : List UInt8) (paddedMsgLen : ℕ)
  | decrypt (enabled : Bool) (draws : DecryptDraws) (recvPq : Option ParsedMsgHeader)
      (call : BodyCall)
  | cryptoTask (late : List LateRequest)

/-- The state a call leaves in RAM. -/
def RatchetCall.state (P : Primitives K) (idx : ℕ) (st : RatchetState K) :
    RatchetCall → RatchetState K
  | encrypt enabled cleanup plaintext paddedMsgLen =>
    (ratchetEncrypt P idx enabled cleanup st plaintext paddedMsgLen).state
  | decrypt enabled draws recvPq call =>
    (ratchetDecryptBody P idx enabled draws recvPq st call).state
  | cryptoTask late => st.carryOut late

/-- The NVS writes of a call. -/
def RatchetCall.writes (P : Primitives K) (idx : ℕ) (st : RatchetState K) :
    RatchetCall → List (NvsWrite K)
  | encrypt enabled cleanup plaintext paddedMsgLen =>
    (ratchetEncrypt P idx enabled cleanup st plaintext paddedMsgLen).writes
  | decrypt enabled draws recvPq call =>
    (ratchetDecryptBody P idx enabled draws recvPq st call).writes
  | cryptoTask _ => []

/-- RAM and NVS of one contact. -/
structure RatchetDevice (K : Type) where
  state : RatchetState K
  nvs : Nvs K

/-- A completed call. -/
def RatchetDevice.step (P : Primitives K) (idx : ℕ) (s : RatchetDevice K) (call : RatchetCall) :
    RatchetDevice K where
  state := call.state P idx s.state
  nvs := s.nvs.putAll (call.writes P idx s.state)

/-- The first save of a session, into a store that has no PQ state for the slot, is in step
with RAM. -/
theorem ratchetReload_first_save {nvs : Nvs K} {idx : ℕ} {st : RatchetState K}
    (hidx : idx < maxContacts) (hact : nvs (pqKey idx "_act") = none)
    (hinit : st.initialized = true) (hpq : st.pq = .zero) :
    ratchetReload (nvs.putAll (ratchetSaveState idx st)) idx = some st := by
  have hsave : ratchetSaveState idx st = [(ratKey idx, .ratchet st.toRatchetClassical)] := by
    simp [ratchetSaveState, Nat.not_le.mpr hidx, hinit]
  have hload : pqNvsLoad (nvs.put (ratKey idx) (.ratchet st.toRatchetClassical)) idx .zero =
      .zero := by
    have hnone : nvs.put (ratKey idx) (.ratchet st.toRatchetClassical) (pqKey idx "_act") =
        none := by rw [Store.put_of_ne _ _ (ratKey_ne_pqKey _ _ _).symm, hact]
    simp [pqNvsLoad, smpStorageExists, hnone]
  rw [hsave, Store.putAll_cons, Store.putAll_nil,
    ratchetReload_of_blob hidx (Store.put_self _ _ _) hinit, hload, ← hpq]

/-- The sample session as its setup leaves it in an empty store. -/
def sampleDevice : RatchetDevice SymKey where
  state := sampleSession
  nvs := Store.putAll (fun _ => none) (ratchetSaveState 0 sampleSession)

/-- The sample device starts in step with its store. -/
theorem sampleDevice_reload : ratchetReload sampleDevice.nvs 0 = some sampleDevice.state :=
  ratchetReload_first_save (by decide) rfl rfl rfl

end SimpleGo
