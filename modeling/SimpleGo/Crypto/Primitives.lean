import SimpleGo.Lib.Memory
import Mathlib.Logic.Function.Iterate

/-!
# The cryptographic code the firmware calls

HKDF-SHA-512 and AES-256-GCM come from mbedTLS, X448 from wolfSSL and sntrup761 from
PQClean. They enter as the fields of `Primitives`. The 32-byte keys they produce have an
abstract type `K`, so a statement can ask for properties that no function to 32-byte
strings has exactly, such as the absence of collisions.

The three HKDF uses of the ratchet are the constructors of `KdfCall`; each gives the salt,
the input keying material and the info string of its call, and the 96 bytes of output are
three 32-byte blocks.
-/

namespace SimpleGo

open Lib

/-- `x448_keypair_t`. -/
structure X448KeyPair where
  publicKey : Bytes 56
  privateKey : Bytes 56
  deriving DecidableEq

/-- An sntrup761 key pair: `SNTRUP761_PUBLICKEYBYTES` and `SNTRUP761_SECRETKEYBYTES`. -/
structure KemKeyPair where
  publicKey : Bytes 1158
  secretKey : Bytes 1763
  deriving DecidableEq

/-- An HKDF argument: a byte string, or a 32-byte key. -/
inductive Material (K : Type) where
  | bytes (b : List UInt8)
  | key (k : K)

/-- The external functions. A Boolean-returning function that fills a buffer is an `Option`. -/
structure Primitives (K : Type) where
  /-- The all-zero key. -/
  zeroKey : K
  /-- One 32-byte block of `mbedtls_hkdf` with SHA-512 and 96 bytes of output. -/
  hkdfSha512 : (salt ikm : Material K) → (info : String) → Fin 3 → K
  /-- The two 16-byte halves of a block. -/
  splitIvs : K → Bytes 16 × Bytes 16
  /-- Ciphertext and tag under a key, IV and additional data. -/
  aesGcmEncrypt : K → Bytes 16 → (aad plaintext : List UInt8) → List UInt8 × Bytes 16
  /-- Authenticated decryption. -/
  aesGcmDecrypt : K → Bytes 16 → (aad ciphertext : List UInt8) → Bytes 16 → Option (List UInt8)
  /-- `x448_dh(their_public, my_private, shared_secret)`. -/
  x448Dh : (theirPublic myPrivate : Bytes 56) → Option (Bytes 56)
  /-- `sntrup761_enc` for given random coins. -/
  kemEnc : (pk : Bytes 1158) → (coins : Bytes 32) → Bytes 1039 × Bytes 32
  /-- `sntrup761_dec`. -/
  kemDec : (ct : Bytes 1039) → (sk : Bytes 1763) → Bytes 32
  /-- GCM keeps the length. -/
  aesGcmEncrypt_length : ∀ k iv aad pt, (aesGcmEncrypt k iv aad pt).1.length = pt.length
  /-- GCM keeps the length when it opens. -/
  aesGcmDecrypt_length : ∀ k iv aad ct tag pt,
    aesGcmDecrypt k iv aad ct tag = some pt → pt.length = ct.length

/-- A use of HKDF by the ratchet, with the secrets it is given. -/
inductive KdfCall (K : Type) where
  | x3dh (dhCombined : List UInt8)
  | root (rootKey : K) (dhOut : Bytes 56) (kemSecret : Option (Bytes 32))
  | chain (chainKey : K)

namespace KdfCall

variable {K : Type}

/-- X3DH passes 64 zero bytes, the root KDF the root key, the chain KDF no salt. -/
def salt : KdfCall K → Material K
  | x3dh _ => .bytes (List.replicate 64 0)
  | root rootKey _ _ => .key rootKey
  | chain _ => .bytes []

/-- The input keying material; a KEM secret is appended to the DH output. -/
def ikm : KdfCall K → Material K
  | x3dh dhCombined => .bytes dhCombined
  | root _ dhOut kemSecret => .bytes (dhOut.toList ++ (kemSecret.map Vector.toList).getD [])
  | chain chainKey => .key chainKey

/-- The info string. -/
def info : KdfCall K → String
  | x3dh _ => "SimpleXX3DH"
  | root _ _ _ => "SimpleXRootRatchet"
  | chain _ => "SimpleXChainRatchet"

end KdfCall

namespace Primitives

variable {K : Type} (P : Primitives K)

/-- A KDF call has three blocks. -/
instance blocks_neZero : @NeZero ℕ Zero.ofOfNat0 3 := ⟨by decide⟩

/-- A 32-byte block of a KDF call. -/
def kdf (call : KdfCall K) (block : Fin 3) : K :=
  P.hkdfSha512 call.salt call.ikm call.info block

/-- Output of `kdf_root`. -/
structure RootKeys (K : Type) where
  newRootKey : K
  chainKey : K
  nextHeaderKey : K

/-- Output of `kdf_chain`. -/
structure ChainKeys (K : Type) where
  nextChainKey : K
  messageKey : K
  msgIv : Bytes 16
  headerIv : Bytes 16

/-- `kdf_root`: a `NULL` KEM secret leaves the input at the DH output. -/
def kdfRoot (rootKey : K) (dhOut : Bytes 56) (kemSecret : Option (Bytes 32)) : RootKeys K where
  newRootKey := P.kdf (.root rootKey dhOut kemSecret) 0
  chainKey := P.kdf (.root rootKey dhOut kemSecret) 1
  nextHeaderKey := P.kdf (.root rootKey dhOut kemSecret) 2

/-- `kdf_chain`. -/
def kdfChain (chainKey : K) : ChainKeys K where
  nextChainKey := P.kdf (.chain chainKey) 0
  messageKey := P.kdf (.chain chainKey) 1
  msgIv := (P.splitIvs (P.kdf (.chain chainKey) 2)).1
  headerIv := (P.splitIvs (P.kdf (.chain chainKey) 2)).2

/-- The chain key after one message. -/
def nextChainKey (chainKey : K) : K := (P.kdfChain chainKey).nextChainKey

/-- The chain key after skipping `n` messages. -/
def skipChain (n : ℕ) (chainKey : K) : K := P.nextChainKey^[n] chainKey

@[simp] theorem skipChain_zero (chainKey : K) : P.skipChain 0 chainKey = chainKey := rfl

/-- One step more is taken last. -/
theorem skipChain_succ (n : ℕ) (chainKey : K) :
    P.skipChain (n + 1) chainKey = P.nextChainKey (P.skipChain n chainKey) :=
  Function.iterate_succ_apply' ..

/-- Skipping composes. -/
theorem skipChain_add (m n : ℕ) (chainKey : K) :
    P.skipChain (m + n) chainKey = P.skipChain m (P.skipChain n chainKey) :=
  Function.iterate_add_apply ..

/-- AES-256-GCM opens what it encrypted. -/
def GcmCorrect : Prop := ∀ k iv aad pt,
  P.aesGcmDecrypt k iv aad (P.aesGcmEncrypt k iv aad pt).1 (P.aesGcmEncrypt k iv aad pt).2 = some pt

/-- No two KDF outputs coincide, and none is the zero key. -/
structure CollisionFree : Prop where
  inj : ∀ call call' block block', P.kdf call block = P.kdf call' block' →
    call = call' ∧ block = block'
  ne_zero : ∀ call block, P.kdf call block ≠ P.zeroKey

namespace CollisionFree

variable {P}

/-- The chain step is injective. -/
theorem nextChainKey_injective (hP : P.CollisionFree) : Function.Injective P.nextChainKey := by
  intro a b h
  have hcall := (hP.inj _ _ _ _ h).1
  exact KdfCall.chain.inj hcall

/-- The chain key determines the message key and conversely. -/
theorem messageKey_injective (hP : P.CollisionFree) :
    Function.Injective fun ck => (P.kdfChain ck).messageKey := by
  intro a b h
  have hcall := (hP.inj _ _ _ _ h).1
  exact KdfCall.chain.inj hcall

end CollisionFree

end Primitives

end SimpleGo
