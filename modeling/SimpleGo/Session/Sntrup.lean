import SimpleGo.Session.Correctness
import SimpleGo.Sntrup.Agreement

/-!
# Sessions over sntrup761

The session between two parties takes the KEM as a parameter with the assumption that
decapsulation inverts encapsulation. Here the parameter is the code of sntrup761 with the key
pairs its key generation returns, and the assumption a theorem. SHA-512 and the bytes that the
random generator makes of a call's coins stay parameters.
-/

namespace SimpleGo

open Lib Sntrup

variable {K : Type}

/-! ### Exchanging the KEM -/

section Kem

/-- The two operations of a KEM, for the sizes of the ratchet. -/
structure KemCode where
  enc : Bytes 1158 → Bytes 32 → Bytes 1039 × Bytes 32
  dec : Bytes 1039 → Bytes 1763 → Bytes 32

/-- The primitives with another KEM. -/
def Primitives.withKem (P : Primitives K) (code : KemCode) : Primitives K :=
  { P with kemEnc := code.enc, kemDec := code.dec }

/-- Another KEM leaves the KDF free of collisions. -/
theorem Primitives.CollisionFree.withKem {P : Primitives K} (hP : P.CollisionFree)
    (code : KemCode) : (P.withKem code).CollisionFree where
  inj call call' block block' h := hP.inj call call' block block' h
  ne_zero call block := hP.ne_zero call block

/-- Another KEM leaves GCM as it is. -/
theorem Primitives.GcmCorrect.withKem {P : Primitives K} (hgcm : P.GcmCorrect)
    (code : KemCode) : (P.withKem code).GcmCorrect := hgcm

/-- Both ends of a DH between generated pairs compute one secret. -/
def DhAgree (P : Primitives K) (dhPair : X448KeyPair → Prop) : Prop :=
  ∀ a b, dhPair a → dhPair b → ∃ dhOut, P.x448Dh b.publicKey a.privateKey = some dhOut ∧
    P.x448Dh a.publicKey b.privateKey = some dhOut

/-- The generators with another KEM. -/
def kemKeys {P : Primitives K} {dhPair : X448KeyPair → Prop} (dhAgree : DhAgree P dhPair)
    (code : KemCode) (kemPair : KemKeyPair → Prop)
    (kemCorrect : ∀ pair, kemPair pair → ∀ coins,
      code.dec (code.enc pair.publicKey coins).1 pair.secretKey =
        (code.enc pair.publicKey coins).2) : KeyGeneration (P.withKem code) where
  dhPair := dhPair
  kemPair := kemPair
  dh_agree := dhAgree
  kem_correct := kemCorrect

end Kem

/-! ### sntrup761 -/

section Sntrup761

variable (sha512 : List UInt8 → Bytes 64) (expand : Bytes 32 → List UInt8)

/-- `sntrup761_enc` and `sntrup761_dec` on buffers. -/
def sntrup761 : KemCode where
  enc pk coins :=
    let (ct, ss) := cryptoKemEnc sha512 pk.toList (expand coins)
    (bytesAt ct 0 1039, bytesAt ss 0 32)
  dec ct sk := bytesAt (cryptoKemDec sha512 ct.toList sk.toList) 0 32

/-- A pair that `sntrup761_keypair` wrote. -/
def Sntrup761Pair (pair : KemKeyPair) : Prop :=
  IsKeyPair sha512 pair.publicKey.toList pair.secretKey.toList

/-- The bytes of a list of the right length. -/
theorem toList_bytesAt_zero {l : List UInt8} {n : ℕ} (h : l.length = n) :
    (bytesAt l 0 n).toList = l := by
  apply List.ext_getElem
  · simp [h]
  · intro i h1 h2
    simp [bytesAt, h2]

/-- On buffers too, decapsulation inverts encapsulation. -/
theorem sntrup761_correct (pair : KemKeyPair) (h : Sntrup761Pair sha512 pair)
    (coins : Bytes 32) :
    (sntrup761 sha512 expand).dec ((sntrup761 sha512 expand).enc pair.publicKey coins).1
      pair.secretKey = ((sntrup761 sha512 expand).enc pair.publicKey coins).2 := by
  have hcorrect := h.correct (expand coins)
  have hct : (cryptoKemEnc sha512 pair.publicKey.toList (expand coins)).1.length = 1039 :=
    length_hide sha512 (short_shortRandom _).1 _ _
  simp only [sntrup761]
  rw [toList_bytesAt_zero hct, hcorrect]

/-- The generators of a device. -/
def sntrupKeys {P : Primitives K} {dhPair : X448KeyPair → Prop} (dhAgree : DhAgree P dhPair) :
    KeyGeneration (P.withKem (sntrup761 sha512 expand)) :=
  kemKeys dhAgree (sntrup761 sha512 expand) (Sntrup761Pair sha512)
    (sntrup761_correct sha512 expand)

end Sntrup761

/-- What is delivered in a run from the handshake on is what was sent. -/
theorem SessionInv.delivers {P : Primitives K} {gen : KeyGeneration P} {idx : ℕ}
    {enabled : Side → Bool} {dhCombined : List UInt8} {s : Session K}
    (h : SessionInv P gen dhCombined enabled s) (hP : P.CollisionFree) (hgcm : P.GcmCorrect)
    {actions : List SessionAction}
    (hrun : StepsMeet (Session.step P idx enabled)
      (fun s act => act.Supported gen enabled s ∧ act.ChainBounded s) s actions) :
    StepsMeet (Session.step P idx enabled) (SessionAction.Delivers P idx enabled) s actions :=
  hrun.invariant_step (fun s act hs hact => (hs.step idx hP hgcm s act hact).2)
    (fun s act hs hact => (hs.step idx hP hgcm s act hact).1) h

/-- With sntrup761 every delivered message decrypts to the plaintext that was sent, in every run
in which no sending chain has more than `2 ^ 32` messages. -/
theorem session_delivers_sntrup {P : Primitives K} (hP : P.CollisionFree) (hgcm : P.GcmCorrect)
    (sha512 : List UInt8 → Bytes 64) (expand : Bytes 32 → List UInt8)
    {dhPair : X448KeyPair → Prop} (dhAgree : DhAgree P dhPair) (idx : ℕ) (enabled : Side → Bool)
    {peerKey1 peerKey2 : Bytes 56} {ourKey1 ourKey2 dhSelfB : X448KeyPair}
    {x3dh a : RatchetState K}
    (hx3dh : ratchetX3dhSender (P.withKem (sntrup761 sha512 expand)) peerKey1 peerKey2 ourKey1
      ourKey2 (.zero (P.withKem (sntrup761 sha512 expand))) = some x3dh)
    (ha : ratchetSetup (P.withKem (sntrup761 sha512 expand)) peerKey1 peerKey2 ourKey1 ourKey2 =
      some a)
    (hself : dhPair ourKey2) (hpeer : dhPair dhSelfB) (hpub : dhSelfB.publicKey = a.dhPeer)
    (actions : List SessionAction)
    (hrun : StepsMeet (Session.step (P.withKem (sntrup761 sha512 expand)) idx enabled)
      (fun s act => act.Supported (sntrupKeys sha512 expand dhAgree) enabled s ∧
        act.ChainBounded s)
      (.start a (mirroredState (P.withKem (sntrup761 sha512 expand)) x3dh.rootKey dhSelfB a))
      actions) :
    StepsMeet (Session.step (P.withKem (sntrup761 sha512 expand)) idx enabled)
      (SessionAction.Delivers (P.withKem (sntrup761 sha512 expand)) idx enabled)
      (.start a (mirroredState (P.withKem (sntrup761 sha512 expand)) x3dh.rootKey dhSelfB a))
      actions := by
  have hstart : ∃ dhCombined, SessionInv (P.withKem (sntrup761 sha512 expand))
      (sntrupKeys sha512 expand dhAgree) dhCombined enabled
      (.start a (mirroredState (P.withKem (sntrup761 sha512 expand)) x3dh.rootKey dhSelfB a)) :=
    SessionInv.start hx3dh ha hself hpeer hpub
  obtain ⟨dhCombined, hstart⟩ := hstart
  exact hstart.delivers (hP.withKem _) (hgcm.withKem _) hrun

/-! ### A run -/

section Run

variable (code : KemCode)

/-- The X3DH state of the sample handshake. -/
def kemX3dh : RatchetState SymKey :=
  (ratchetX3dhSender (symbolic.withKem code) (symbolicPair 1).publicKey (symbolicPair 2).publicKey
    (symbolicPair 3) (symbolicPair 4) (.zero (symbolic.withKem code))).getD (.zero symbolic)

/-- Alice's state after it. -/
def kemSession : RatchetState SymKey :=
  (ratchetSetup (symbolic.withKem code) (symbolicPair 1).publicKey (symbolicPair 2).publicKey
    (symbolicPair 3) (symbolicPair 4)).getD (.zero symbolic)

/-- The session comes from the key agreement. -/
theorem kemSession_setup : ratchetX3dhSender (symbolic.withKem code) (symbolicPair 1).publicKey
      (symbolicPair 2).publicKey (symbolicPair 3) (symbolicPair 4)
      (.zero (symbolic.withKem code)) = some (kemX3dh code) ∧
    ratchetSetup (symbolic.withKem code) (symbolicPair 1).publicKey (symbolicPair 2).publicKey
      (symbolicPair 3) (symbolicPair 4) = some (kemSession code) := ⟨rfl, rfl⟩

/-- The session at its start. -/
def kemStart : Session SymKey :=
  .start (kemSession code) (mirroredState (symbolic.withKem code) (kemX3dh code).rootKey
    (symbolicPair 2) (kemSession code))

/-- A delivery that draws a given KEM pair. -/
def kemDelivery (pair : KemKeyPair) : Delivery where
  before := []
  after := fun _ => 0
  draws := { headerAlloc := true, headerJunk := fun _ => 0, bodyAlloc := true
             bodyJunk := fun _ => 0
             body := { sampleDraws with kem := { sampleDraws.kem with keygen := some pair } } }

/-- The delivery finds what it needs. -/
theorem kemDelivery_succeeds {gen : KeyGeneration (symbolic.withKem code)} {pair : KemKeyPair}
    (hdh : gen.dhPair (symbolicPair 7)) (hpair : gen.kemPair pair) :
    (kemDelivery pair).Succeeds gen where
  headerAlloc := rfl
  bodyAlloc := rfl
  aadAlloc := rfl
  dhSelf := ⟨symbolicPair 7, rfl, hdh⟩
  kem := ⟨⟨pair, rfl, hpair⟩, ⟨Vector.replicate 32 6, rfl⟩, rfl, rfl⟩
  late _ := rfl

/-- The tag of a handshake key is not that of the zero key. -/
theorem tag_x3dh_ne (dhCombined : List UInt8) (block : Fin 3) :
    (SymKey.x3dh dhCombined block).tag ≠ SymKey.zero.tag := by
  intro h
  have hfirst : 1 + UInt8.ofNat block.val = 0 := congrArg (fun tag => tag[0]) h
  clear h
  revert hfirst
  revert block
  decide

/-- What is sealed under an X3DH key does not open under zeros. -/
theorem open_zero_eq_none {k : SymKey} (hk : k.tag ≠ SymKey.zero.tag) (iv : Bytes 16)
    (aad ct : List UInt8) :
    (symbolic.withKem code).aesGcmDecrypt .zero iv aad ct k.tag = none := if_neg hk

/-- Alice's first message reaches Bob. -/
theorem kemStart_supported {gen : KeyGeneration (symbolic.withKem code)} {pair : KemKeyPair}
    (hdh : gen.dhPair (symbolicPair 7)) (hpair : gen.kemPair pair) :
    StepsMeet (Session.step (symbolic.withKem code) 0 fun _ => true)
      (fun s act => act.Supported gen (fun _ => true) s ∧ act.ChainBounded s) (kemStart code)
      [.send .alice [1] 300, .receive .bob (kemDelivery pair)] := by
  refine ⟨⟨?_, Nat.zero_lt_succ _⟩, ⟨⟨kemDelivery_succeeds code hdh hpair, ?_⟩, trivial⟩, trivial⟩
  · intro paddedLen hpadded
    obtain rfl : 300 = paddedLen := Option.some.inj hpadded
    exact ⟨by decide, by decide, by decide⟩
  · intro item rest hchannel _
    have hsend := Endpoint.send_inactive (symbolic.withKem code) 0 true
      ((kemStart code).endpoint .alice) rfl rfl
      (show PqKemState.zero.pqKemState ≤ 2 by decide) [1] 300
    have hsent : ((kemStart code).step (symbolic.withKem code) 0 (fun _ => true)
        (.send .alice [1] 300)).channel .alice =
          [{ wire := encRatchetMessage (symbolic.withKem code) (kemSession code)
              (emittedHeader true (kemSession code)) [1] 300
             plaintext := [1], sender := kemSession code, number := 0 }] := by
      simp only [Session.step, hsend, Function.update_self]
      rfl
    rw [Side.peer, hsent] at hchannel
    obtain ⟨rfl, -⟩ := List.cons.inj hchannel
    have hcarries := carries_clientMessageOf [] (encRatchetMessage (symbolic.withKem code)
      (kemSession code) (emittedHeader true (kemSession code)) [1] 300) fun _ => 0
    refine (hcarries.openHeader (emittedHeader_length_lt _ _) _ _).trans ?_
    exact open_zero_eq_none code (tag_x3dh_ne _ 0) _ _ _

end Run

/-- A message over sntrup761, with a KEM pair drawn from zeros. -/
theorem session_delivers_sntrup_zeroDraws : ∃ pair,
    Sntrup761Pair (fun _ => zeroBytes 64) pair ∧
    StepsMeet (Session.step (symbolic.withKem (sntrup761 (fun _ => zeroBytes 64) fun _ => []))
        0 fun _ => true)
      (SessionAction.Delivers (symbolic.withKem (sntrup761 (fun _ => zeroBytes 64) fun _ => []))
        0 fun _ => true)
      (kemStart (sntrup761 (fun _ => zeroBytes 64) fun _ => []))
      [.send .alice [1] 300, .receive .bob (kemDelivery pair)] := by
  obtain ⟨pk, sk, h⟩ := isKeyPair_zeroDraws fun _ => zeroBytes 64
  have hread := IsKeyPair.read ⟨_, h⟩
  have hpair : Sntrup761Pair (fun _ => zeroBytes 64) ⟨bytesAt pk 0 1158, bytesAt sk 0 1763⟩ := by
    rw [Sntrup761Pair, toList_bytesAt_zero hread.2.2.2, toList_bytesAt_zero hread.2.2.1]
    exact ⟨_, h⟩
  have hagree : DhAgree symbolic fun pair => pair.publicKey = pair.privateKey :=
    symbolicKeys.dh_agree
  exact ⟨_, hpair, session_delivers_sntrup symbolic_collisionFree symbolic_gcmCorrect _ _ hagree 0 _
    (kemSession_setup _).1 (kemSession_setup _).2 rfl rfl rfl _ (kemStart_supported _ rfl hpair)⟩

end SimpleGo
