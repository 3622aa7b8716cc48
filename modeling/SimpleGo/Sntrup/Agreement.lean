import SimpleGo.Sntrup.Kem

/-!
# Agreement on the session key

Encapsulation to a generated key and decapsulation with its secret half end with one session key,
whatever the random generator delivers. On strings that are no ciphertext of a short polynomial,
decapsulation derives a key from the secret of the key pair: it tells the two kinds apart exactly.
-/

namespace SimpleGo.Sntrup

open Lib

/-! ### Every string of the length of a ciphertext -/

/-- The forced weight is right for every small polynomial. -/
theorem short_cryptoCoreWforce {r : Vector Int8 p} (hr : Small r) :
    Short (cryptoCoreWforce r) := by
  by_cases hw : weight p (smallInts r) = 286
  · rw [cryptoCoreWforce_short ⟨hr, hw⟩]
    exact ⟨hr, hw⟩
  · obtain ⟨hsum, hpos, hle⟩ := toInt_weight hr le_rfl
    have hp : (p : ℤ) = 761 := rfl
    have hmask : weightwMask r = -1 := by
      rw [weightwMask, int16NonzeroMask_eq, if_neg]
      rw [← Int16.toInt_inj, Int32.toInt_toInt16, Int32.toInt_sub, hsum,
        show (286 : Int32).toInt = 286 from rfl, bmod_word (by omega) (by omega),
        bmod_halfword (by omega) (by omega)]
      intro h
      apply hw
      have h : weight p (smallInts r) - 286 = 0 := h
      omega
    have hentry : ∀ i, smallInts (cryptoCoreWforce r) i =
        if i < p then if i < w then 1 else 0 else 0 := by
      intro i
      rw [smallInts, cryptoCoreWforce, hmask, entry_tabulate, show ~~~(-1 : Int32) = 0 from rfl,
        Int32.and_zero, Int32.and_zero]
      split_ifs <;> rfl
    constructor
    · intro i
      rw [hentry]
      split_ifs <;> decide
    · refine Eq.trans ?_ (weight_ones (show w ≤ p by decide))
      apply Finset.sum_congr rfl
      intro i hi
      rw [hentry, if_pos (Finset.mem_range.mp hi)]
      rfl

section KeyPair

variable {sha512 : List UInt8 → Bytes 64} {pk sk : List UInt8}

/-- What is recovered with a generated key is always short. -/
theorem IsKeyPair.short_recover (h : IsKeyPair sha512 pk sk) (c : List UInt8) :
    Short (Sntrup.recover c sk) := by
  obtain ⟨f, g, v, rho, hf, -, hv, -, -, hpkLen, hsk⟩ := h.fields
  obtain ⟨hfBytes, hvBytes, -⟩ := KeyFields.read
    ⟨f, v, pk, rho, hash sha512 (4 :: pk)⟩ hpkLen (length_hash _ _)
  rw [Sntrup.recover, hsk, hfBytes, hvBytes, smallDecode_smallEncode hf.1,
    smallDecode_smallEncode hv]
  apply short_cryptoCoreWforce
  exact small_r3Mult (by decide) (small_r3FromRq (residue_rqMult3 (residue_rqMultSmall (by decide)
    (residue_roundedDecode _) hf.1))) hv

end KeyPair

/-! ### A key pair

With zeros from the random generator every coefficient of `g` is `-1`, and `x - 1` times their
sum is `x`, which has an inverse. -/

/-- The draws of the key pair. -/
def zeroDraws : KeypairDraws where
  g := [List.replicate 3044 0]
  f := List.replicate 3044 0
  rho := zeroBytes 191

/-- A draw of zeros gives the coefficient `-1` everywhere. -/
theorem smallInts_zeroDraw {i : ℕ} (hi : i < p) :
    smallInts (smallRandom (List.replicate 3044 0)) i = -1 := by
  have hword : decodePxint32 (List.replicate 3044 0) i = 0 := by
    have hbyte : ∀ j, (List.replicate 3044 (0 : UInt8)).getD j 0 = 0 := by
      intro j
      rw [List.getD_eq_getElem?_getD, List.getElem?_replicate]
      split_ifs <;> rfl
    simp only [decodePxint32, hbyte]
    rfl
  rw [smallInts, smallRandom, entry_tabulate, if_pos hi, hword]
  rfl

/-- The polynomial of the draw is a unit. -/
theorem isUnit_zeroDraw :
    IsUnit (value (trinomialRoot 3 p) p (smallInts (smallRandom (List.replicate 3044 0)))) := by
  have hx : trinomialRoot 3 p ^ p = trinomialRoot 3 p + 1 := trinomialRoot_pow 3 p
  have hinv := mul_pow_sub_one (by decide) hx
  generalize trinomialRoot 3 p = x at *
  have hvalue : value x p (smallInts (smallRandom (List.replicate 3044 0))) =
      -∑ i ∈ Finset.range p, x ^ i := by
    rw [value, ← Finset.sum_neg_distrib]
    apply Finset.sum_congr rfl
    intro i hi
    rw [smallInts_zeroDraw (Finset.mem_range.mp hi), Int.cast_neg, Int.cast_one, neg_one_mul]
  have hgeom := geom_sum_mul x p
  rw [hx, add_sub_cancel_right] at hgeom
  rw [hvalue, IsUnit.neg_iff]
  exact isUnit_of_mul_isUnit_left (by rw [hgeom]; exact IsUnit.of_mul_eq_one _ hinv)

/-- The draws end with a key pair. -/
theorem isKeyPair_zeroDraws (sha512 : List UInt8 → Bytes 64) :
    ∃ pk sk, cryptoKemKeypair sha512 zeroDraws = some (pk, sk) := by
  have hflag := (cryptoCoreInv3_spec (by decide) (by decide)
    (small_smallRandom (List.replicate 3044 0))).2.2.1.mpr isUnit_zeroDraw
  have hdraw : drawG zeroDraws.g = some (smallRandom (List.replicate 3044 0),
      (cryptoCoreInv3 (smallRandom (List.replicate 3044 0))).1) := by
    rw [zeroDraws, drawG]
    simp only [hflag, if_true]
  rw [cryptoKemKeypair, hdraw]
  exact ⟨_, _, rfl⟩

/-! ### Results -/

/-- Decapsulation finds the session key of every encapsulation to every generated key. -/
theorem cryptoKem_agrees (sha512 : List UInt8 → Bytes 64) {draws : KeypairDraws}
    {pk sk : List UInt8} (h : cryptoKemKeypair sha512 draws = some (pk, sk))
    (random : List UInt8) :
    let (c, k) := cryptoKemEnc sha512 pk random
    pk.length = 1158 ∧ sk.length = 1763 ∧ c.length = 1039 ∧ k.length = 32 ∧
      cryptoKemDec sha512 c sk = k := by
  have hpair : IsKeyPair sha512 pk sk := ⟨draws, h⟩
  obtain ⟨-, -, hsk, hpk⟩ := hpair.read
  exact ⟨hpk, hsk, length_hide sha512 (short_shortRandom random).1 _ _, length_hash _ _,
    hpair.correct random⟩

/-- A key pair and an encapsulation, from zeros. -/
theorem cryptoKem_agrees_zeroDraws : ∃ pk sk,
    cryptoKemKeypair (fun _ => zeroBytes 64) zeroDraws = some (pk, sk) ∧
      cryptoKemDec (fun _ => zeroBytes 64)
        (cryptoKemEnc (fun _ => zeroBytes 64) pk (List.replicate 3044 0)).1 sk =
          (cryptoKemEnc (fun _ => zeroBytes 64) pk (List.replicate 3044 0)).2 := by
  obtain ⟨pk, sk, h⟩ := isKeyPair_zeroDraws fun _ => zeroBytes 64
  exact ⟨pk, sk, h, (cryptoKem_agrees _ h (List.replicate 3044 0)).2.2.2.2⟩

/-- Decapsulation of any string of the length of a ciphertext: the session key of `r` for a
ciphertext of a short `r`, and a key that only the secret `rho` gives for every other string. -/
theorem decapsulation_of_any_string {sha512 : List UInt8 → Bytes 64} {pk sk : List UInt8}
    (h : IsKeyPair sha512 pk sk) {c : List UInt8} (hc : c.length = 1039) :
    (∀ r, Short r → c = (hide sha512 r pk (hash sha512 (4 :: pk))).1 →
      cryptoKemDec sha512 c sk = hash sha512 (1 :: hash sha512 (3 :: smallEncode r) ++ c)) ∧
    ((∀ r, Short r → c ≠ (hide sha512 r pk (hash sha512 (4 :: pk))).1) →
      cryptoKemDec sha512 c sk =
        hash sha512 (0 :: hash sha512 (3 :: (sk.drop 1540).take 191) ++ c)) := by
  obtain ⟨hpk, hcache, hsk, -⟩ := h.read
  have hshort := h.short_recover c
  have hdec := cryptoKemDec_eq sha512 hc hsk hshort.1
  rw [hpk, hcache] at hdec
  constructor
  · intro r hr heq
    have hrecover := h.recover hr (hash sha512 (4 :: pk))
    rw [← heq] at hrecover
    rw [hdec, hrecover, if_pos heq]
  · intro hnone
    rw [hdec, if_neg (hnone _ hshort)]

/-- A hash that repeats the first byte of its input. -/
def headHash (input : List UInt8) : Bytes 64 := Vector.replicate 64 (input.headD 0)

/-- The hash of a message under this hash function. -/
theorem hash_headHash (b : UInt8) (input : List UInt8) :
    hash headHash (b :: input) = List.replicate 32 b := by
  rw [hash, headHash, Vector.toList_replicate, List.take_replicate]
  rfl

/-- A string of ones is no ciphertext, which ends with a hash behind the byte 2. -/
theorem replicate_one_ne_hide (r : Vector Int8 p) (pk cache : List UInt8) :
    List.replicate 1039 1 ≠ (hide headHash r pk cache).1 := by
  intro heq
  have hlast := congrArg List.getLast? heq
  rw [hide] at hlast
  dsimp only at hlast
  rw [List.cons_append, hash_headHash, List.getLast?_append, List.getLast?_replicate,
    List.getLast?_replicate] at hlast
  simp at hlast

/-- Under the key pair from zeros: the ciphertext of a short polynomial, and a string of ones. -/
theorem decapsulation_of_two_strings : ∃ pk sk, IsKeyPair headHash pk sk ∧
    cryptoKemDec headHash (hide headHash (shortRandom (List.replicate 3044 0)) pk
      (hash headHash (4 :: pk))).1 sk = List.replicate 32 1 ∧
    cryptoKemDec headHash (List.replicate 1039 1) sk = List.replicate 32 0 := by
  obtain ⟨pk, sk, h⟩ := isKeyPair_zeroDraws headHash
  have hshort : Short (shortRandom (List.replicate 3044 0)) := short_shortRandom _
  refine ⟨pk, sk, ⟨_, h⟩, ?_, ?_⟩
  · rw [(decapsulation_of_any_string ⟨_, h⟩ (length_hide headHash hshort.1 _ _)).1 _ hshort rfl,
      hash_headHash, List.cons_append, hash_headHash]
  · rw [(decapsulation_of_any_string ⟨_, h⟩ List.length_replicate).2 fun r _ =>
      replicate_one_ne_hide r pk _, List.cons_append, hash_headHash]

end SimpleGo.Sntrup
