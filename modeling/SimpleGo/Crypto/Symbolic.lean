import SimpleGo.Crypto.Primitives

/-!
# A symbolic instance of the primitives

Keys are the terms that describe how they were derived, so the KDF has no collisions. DH
adds bytes, a KEM ciphertext carries its secret, and an AES-GCM tag carries a fingerprint of
the key. It is the instance on which concrete runs are evaluated.
-/

namespace SimpleGo

open Lib

/-- A key and its derivation. -/
inductive SymKey where
  | zero
  | x3dh (dhCombined : List UInt8) (block : Fin 3)
  | root (rootKey : SymKey) (ikm : List UInt8) (block : Fin 3)
  | chain (chainKey : SymKey) (block : Fin 3)
  deriving DecidableEq

namespace SymKey

/-- HKDF on terms; the ratchet does not use a keyed salt with a keyed input. -/
def hkdf (salt ikm : Material SymKey) (_info : String) (block : Fin 3) : SymKey :=
  match salt, ikm with
  | .key rootKey, .bytes b => root rootKey b block
  | _, .key chainKey => chain chainKey block
  | .bytes _, .bytes b => x3dh b block

/-- A small value that separates keys of different shape. -/
def fingerprint : SymKey → UInt8
  | zero => 0
  | x3dh _ block => 1 + UInt8.ofNat block.val
  | root rootKey _ block => 16 * rootKey.fingerprint + 4 + UInt8.ofNat block.val
  | chain chainKey block => 16 * chainKey.fingerprint + 8 + UInt8.ofNat block.val

/-- The tag of a key: its fingerprint, then zeros. -/
def tag (k : SymKey) : Bytes 16 := (zeroBytes 16).set 0 k.fingerprint

end SymKey

/-- The symbolic primitives. -/
def symbolic : Primitives SymKey where
  zeroKey := .zero
  hkdfSha512 := SymKey.hkdf
  splitIvs _ := (zeroBytes 16, zeroBytes 16)
  aesGcmEncrypt k _ _ pt := (pt, k.tag)
  aesGcmDecrypt k _ _ ct tag := if tag = k.tag then some ct else none
  x448Dh theirPublic myPrivate := some (Vector.zipWith (· + ·) theirPublic myPrivate)
  kemEnc _ coins := ((coins ++ zeroBytes 1007 : Bytes (32 + 1007)), coins)
  kemDec ct _ := Vector.ofFn fun i => ct[i.val]
  aesGcmEncrypt_length _ _ _ _ := rfl
  aesGcmDecrypt_length k _ _ ct tag pt h := by
    by_cases ht : tag = k.tag
    · rw [if_pos ht, Option.some.injEq] at h
      rw [h]
    · rw [if_neg ht] at h
      cases h

/-- A symbolic DH key pair: both halves repeat one byte. -/
def symbolicPair (b : UInt8) : X448KeyPair := ⟨Vector.replicate 56 b, Vector.replicate 56 b⟩

/-- A symbolic KEM key pair. -/
def symbolicKemPair (b : UInt8) : KemKeyPair := ⟨Vector.replicate 1158 b, Vector.replicate 1763 b⟩

/-- A DH output and an optional KEM secret are read back from the root KDF's input. -/
theorem rootIkm_injective {dh dh' : Bytes 56} {kem kem' : Option (Bytes 32)}
    (h : dh.toList ++ (kem.map Vector.toList).getD [] =
      dh'.toList ++ (kem'.map Vector.toList).getD []) : dh = dh' ∧ kem = kem' := by
  obtain ⟨hdh, hkem⟩ := List.append_inj h (by simp)
  refine ⟨Vector.toList_inj.mp hdh, ?_⟩
  cases kem with
  | none =>
    cases kem' with
    | none => rfl
    | some s' =>
      have hl := congrArg List.length hkem
      simp at hl
  | some s =>
    cases kem' with
    | none =>
      have hl := congrArg List.length hkem
      simp at hl
    | some s' => exact congrArg some (Vector.toList_inj.mp hkem)

/-- Symbolic GCM opens what it encrypted. -/
theorem symbolic_gcmCorrect : symbolic.GcmCorrect := by
  intro k iv aad pt
  exact if_pos rfl

/-- The symbolic KDF has no collisions. -/
theorem symbolic_collisionFree : symbolic.CollisionFree where
  inj call call' block block' h := by
    cases call <;> cases call' <;>
      simp only [Primitives.kdf, symbolic, KdfCall.salt, KdfCall.ikm, SymKey.hkdf, reduceCtorEq,
        SymKey.x3dh.injEq, SymKey.root.injEq, SymKey.chain.injEq] at h
    · exact ⟨by rw [h.1], h.2⟩
    · obtain ⟨hroot, hikm, hblock⟩ := h
      obtain ⟨hdh, hkem⟩ := rootIkm_injective hikm
      exact ⟨by rw [hroot, hdh, hkem], hblock⟩
    · exact ⟨by rw [h.1], h.2⟩
  ne_zero call block h := by
    cases call <;>
      simp only [Primitives.kdf, symbolic, KdfCall.salt, KdfCall.ikm, SymKey.hkdf,
        reduceCtorEq] at h

/-- No symbolic chain key is its own successor. -/
theorem symbolic_nextChainKey_ne (ck : SymKey) : symbolic.nextChainKey ck ≠ ck := by
  intro h
  have hsize := congrArg sizeOf h
  change sizeOf (SymKey.chain ck 0) = sizeOf ck at hsize
  rw [SymKey.chain.sizeOf_spec] at hsize
  omega

end SimpleGo
