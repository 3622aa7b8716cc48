import SimpleGo.Agent.Receive
import SimpleGo.Crypto.Symbolic
import SimpleGo.Lib.Runs
import Mathlib.Logic.Function.Basic

/-!
# Two parties and two lossy channels

Both parties run `ratchet_encrypt` and the receive pipeline; each channel keeps the order of
the messages and may lose any of them. Alice is the party that ran `ratchet_x3dh_sender` and
`ratchet_init_sender`; Bob starts from the mirrored state. The PQ setting of a party does not
change during a run.

An endpoint also counts the messages of its sending chain, and a message in flight carries
its plaintext, its number and the state it was encrypted in. The code has none of these; they
only serve to state what is delivered. The code's own counter has 32 bits.
-/

namespace SimpleGo

open Lib

variable {K : Type}

/-- The two parties. -/
inductive Side where
  | alice
  | bob
  deriving DecidableEq

/-- The other party. -/
def Side.peer : Side → Side
  | alice => bob
  | bob => alice

@[simp] theorem Side.peer_peer (side : Side) : side.peer.peer = side := by cases side <;> rfl

@[simp] theorem Side.peer_ne (side : Side) : side.peer ≠ side := by cases side <;> decide

@[simp] theorem Side.ne_peer (side : Side) : side ≠ side.peer := by cases side <;> decide

/-- One of two sides is the other's peer. -/
theorem Side.eq_or_eq_peer (side other : Side) : side = other ∨ side = other.peer := by
  cases side <;> cases other <;> decide

/-- A party: its working copy, its pending header, the messages of its sending chain so far. -/
structure Endpoint (K : Type) where
  state : RatchetState K
  recvPq : Option ParsedMsgHeader
  sentInChain : ℕ

/-- A message in flight. -/
structure InFlight (K : Type) where
  wire : List UInt8
  plaintext : List UInt8
  sender : RatchetState K
  number : ℕ

/-- How a message reaches the pipeline: the bytes around it and the environment's choices. -/
structure Delivery where
  before : List UInt8
  after : Mem
  draws : ReceiveDraws

/-- The client message a delivery makes of a message. -/
def Delivery.message (env : Delivery) (wire : List UInt8) : ClientMessage :=
  clientMessageOf env.before wire env.after

/-- `ratchet_encrypt` at one party, and the message it puts on the channel. -/
def Endpoint.send (P : Primitives K) (idx : ℕ) (enabled : Bool) (party : Endpoint K)
    (plaintext : List UInt8) (paddedMsgLen : ℕ) : Endpoint K × List (InFlight K) :=
  let out := ratchetEncrypt P idx enabled false party.state plaintext paddedMsgLen
  match out.output with
  | none => ({ party with state := out.state }, [])
  | some wire =>
    ({ party with state := out.state, sentInChain := party.sentInChain + 1 },
      [{ wire, plaintext, sender := party.state, number := party.sentInChain }])

/-- The receive pipeline at one party, and the plaintext it returns. A successful ADVANCE
starts a sending chain. -/
def Endpoint.receive (P : Primitives K) (idx : ℕ) (enabled : Bool) (party : Endpoint K)
    (env : Delivery) (wire : List UInt8) : Endpoint K × Option (List UInt8) :=
  let m := env.message wire
  let out := ratchetDecryptMessage P idx enabled env.draws party.recvPq party.state m
  let sentInChain :=
    match ratchetHeaderTryDecrypt P party.state m.clientMsg m.emHeader, out.body with
    | some (.advance, _), some _ => 0
    | _, _ => party.sentInChain
  ({ state := out.state, recvPq := out.recvPq, sentInChain }, out.body)

/-- Both parties, and what each has in flight to the other, oldest first. -/
structure Session (K : Type) where
  endpoint : Side → Endpoint K
  channel : Side → List (InFlight K)

/-- A step of the session. -/
inductive SessionAction where
  | send (side : Side) (plaintext : List UInt8) (paddedMsgLen : ℕ)
  /-- `side` gets the oldest message its peer has in flight. -/
  | receive (side : Side) (env : Delivery)
  /-- The channel to `side` loses its oldest message. -/
  | drop (side : Side)

/-- One step. -/
def Session.step (P : Primitives K) (idx : ℕ) (enabled : Side → Bool) (s : Session K) :
    SessionAction → Session K
  | .send side plaintext paddedMsgLen =>
    let out := (s.endpoint side).send P idx (enabled side) plaintext paddedMsgLen
    { endpoint := Function.update s.endpoint side out.1
      channel := Function.update s.channel side (s.channel side ++ out.2) }
  | .receive side env =>
    match s.channel side.peer with
    | [] => s
    | item :: rest =>
      { endpoint := Function.update s.endpoint side
          ((s.endpoint side).receive P idx (enabled side) env item.wire).1
        channel := Function.update s.channel side.peer rest }
  | .drop side =>
    { s with channel := Function.update s.channel side.peer (s.channel side.peer).tail }

/-- A delivery returns the plaintext that was sent. -/
def SessionAction.Delivers (P : Primitives K) (idx : ℕ) (enabled : Side → Bool) (s : Session K) :
    SessionAction → Prop
  | .receive side env => ∀ item rest, s.channel side.peer = item :: rest →
      ((s.endpoint side).receive P idx (enabled side) env item.wire).2 = some item.plaintext
  | _ => True

/-- The party that answers: it holds the X3DH root key, the initiator's header keys the other
way round and the key pair the initiator agreed with. -/
def mirroredState (P : Primitives K) (rootKey : K) (dhSelf : X448KeyPair) (a : RatchetState K) :
    RatchetState K :=
  { RatchetState.zero P with
    nextHeaderKeyRecv := a.headerKeySend
    nextHeaderKeySend := a.nextHeaderKeyRecv
    rootKey := rootKey
    dhSelf := dhSelf
    assocData := a.assocData
    initialized := true }

/-- A party that has neither sent nor received. -/
def Endpoint.start (st : RatchetState K) : Endpoint K where
  state := st
  recvPq := none
  sentInChain := 0

/-- Both parties at the start, with nothing in flight. -/
def Session.start (a b : RatchetState K) : Session K where
  endpoint
    | .alice => .start a
    | .bob => .start b
  channel _ := []

/-! ## What the environment is relied on for -/

/-- The key pairs the two generators draw, and what DH and the KEM do with them. -/
structure KeyGeneration (P : Primitives K) where
  dhPair : X448KeyPair → Prop
  kemPair : KemKeyPair → Prop
  /-- Both ends of a DH compute one secret. -/
  dh_agree : ∀ a b, dhPair a → dhPair b →
    ∃ dhOut, P.x448Dh b.publicKey a.privateKey = some dhOut ∧
      P.x448Dh a.publicKey b.privateKey = some dhOut
  /-- Decapsulation inverts encapsulation. -/
  kem_correct : ∀ pair, kemPair pair → ∀ coins,
    P.kemDec (P.kemEnc pair.publicKey coins).1 pair.secretKey = (P.kemEnc pair.publicKey coins).2

/-- The key pairs of the symbolic instance. -/
def symbolicKeys : KeyGeneration symbolic where
  dhPair pair := pair.publicKey = pair.privateKey
  kemPair _ := True
  dh_agree a b ha hb := by
    refine ⟨Vector.zipWith (· + ·) b.publicKey a.privateKey, rfl, ?_⟩
    change some (Vector.zipWith (· + ·) a.publicKey b.privateKey) = _
    rw [ha, ← hb, Vector.zipWith_comm]
    simp only [UInt8.add_comm]
  kem_correct pair _ coins := by
    apply Vector.ext
    intro i hi
    change (Vector.ofFn fun i => (coins ++ zeroBytes 1007)[i.val] : Bytes 32)[i] = coins[i]
    rw [Vector.getElem_ofFn, Vector.getElem_append_left hi]

/-- The KEM operations of a call succeed, with a generated key pair, and none of another call
comes between them. -/
structure KemDraws.Succeed {P : Primitives K} (gen : KeyGeneration P) (draws : KemDraws) :
    Prop where
  keyPair : ∃ pair, draws.keyPair = some pair ∧ gen.kemPair pair
  encCoins : ∃ coins, draws.encCoins = some coins
  decOk : draws.decOk = true
  late : draws.late = []

/-- The allocations and the key generation of a delivery succeed, and no KEM request is left to
be carried out late. -/
structure Delivery.Succeeds {P : Primitives K} (gen : KeyGeneration P) (env : Delivery) :
    Prop where
  headerAlloc : env.draws.headerAlloc = true
  bodyAlloc : env.draws.bodyAlloc = true
  aadAlloc : env.draws.body.aadAlloc = true
  dhSelf : ∃ pair, env.draws.body.dhSelf = some pair ∧ gen.dhPair pair
  kem : env.draws.body.kem.Succeed gen
  late : ∀ point, env.draws.body.late point = []

/-- A header does not open under a key other than the one it was encrypted under. -/
def HeaderSeparated (P : Primitives K) (st : RatchetState K) (env : Delivery)
    (item : InFlight K) : Prop :=
  item.sender.headerKeySend ≠ st.headerKeyRecv →
    openHeader P st.assocData (env.message item.wire).clientMsg (env.message item.wire).emHeader
      st.headerKeyRecv = none

/-- The payload of a call fits what the call pads it to. -/
def SendFits (enabled : Bool) (st : RatchetState K) (plaintext : List UInt8)
    (paddedMsgLen : ℕ) : Prop :=
  ∀ paddedLen, effectivePaddedLen (pqSendActive enabled st.pq) paddedMsgLen = some paddedLen →
    PayloadFits plaintext paddedLen

/-- What a step relies on: payloads fit, and what a delivery needs from the environment
succeeds. -/
def SessionAction.Supported {P : Primitives K} (gen : KeyGeneration P) (enabled : Side → Bool)
    (s : Session K) : SessionAction → Prop
  | .send side plaintext paddedMsgLen =>
    SendFits (enabled side) (s.endpoint side).state plaintext paddedMsgLen
  | .receive side env => env.Succeeds gen ∧
      ∀ item rest, s.channel side.peer = item :: rest →
        HeaderSeparated P (s.endpoint side).state env item
  | .drop _ => True

/-- A sending chain has at most `2 ^ 32` messages. -/
def SessionAction.ChainBounded (s : Session K) : SessionAction → Prop
  | .send side _ _ => (s.endpoint side).sentInChain < 2 ^ 32
  | _ => True

end SimpleGo
