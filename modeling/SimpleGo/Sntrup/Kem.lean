import Mathlib.Data.Nat.Bitwise
import SimpleGo.Lib.Memory
import SimpleGo.Sntrup.Coding
import SimpleGo.Sntrup.Sort
import SimpleGo.Sntrup.Units

/-!
# The key encapsulation

Key generation draws small `g` until it has an inverse modulo 3 and short `f`, and publishes
`g / 3 f`. Encapsulation multiplies the public key by a short `r`, rounds to multiples of 3 and
derives the session key from `r`. Decapsulation multiplies by `3 f`: no coefficient of
`r g + 3 f e` with the rounding error `e` exceeds `8 * 286`, so the residues modulo `q` are these
numbers themselves, and modulo 3 `e` drops out and `1 / g` leaves `r`. The result is encrypted
again and compared; on a difference the key is derived from a secret of the key pair instead.
The bytes that the random generator fills in are arguments.
-/

namespace SimpleGo.Sntrup

open Lib

/-! ### Randomness -/

/-- `Short_random`, from the words the generator filled in. -/
def shortRandom (random : List UInt8) : Vector Int8 p :=
  let L := decodePxint32 random
  let L := fun i => if i < w then L i &&& 0xFFFFFFFE else (L i &&& 0xFFFFFFFD) ||| 1
  let L := cryptoSortUint32 L p
  tabulate p fun i => ((L i &&& 3) - 1).toInt32.toInt8

/-- `Small_random`, from the words the generator filled in. -/
def smallRandom (random : List UInt8) : Vector Int8 p :=
  let L := decodePxint32 random
  tabulate p fun i => ((((L i &&& 0x3FFFFFFF) * 3) >>> 30) - 1).toInt32.toInt8

/-! ### The weight -/

/-- `Weightw_mask`: zero for weight `w`, else all ones. -/
def weightwMask (r : Vector Int8 p) : Int32 :=
  let weight := (List.range p).foldl (fun weight i => weight + (entry r i &&& 1).toInt32) 0
  int16NonzeroMask (weight - 286).toInt16

/-- `crypto_core_wforce`. -/
def cryptoCoreWforce (r : Vector Int8 p) : Vector Int8 p :=
  let mask := weightwMask r
  tabulate p fun i =>
    if i < w then ((((entry r i).toInt32 ^^^ 1) &&& ~~~mask) ^^^ 1).toInt8
    else ((entry r i).toInt32 &&& ~~~mask).toInt8

/-! ### The functions -/

section Functions

-- SHA-512
variable (sha512 : List UInt8 → Bytes 64)

/-- `Hash`: the first 32 bytes of SHA-512. -/
def hash (input : List UInt8) : List UInt8 := (sha512 input).toList.take 32

/-- `Hide`: the ciphertext, `r_enc`, and `x[1 : 1 + Hash_bytes]`, the hash of `r_enc`. -/
def hide (r : Vector Int8 p) (pk cache : List UInt8) : List UInt8 × List UInt8 × List UInt8 :=
  let rEnc := 3 :: smallEncode r
  let h := rqDecode pk
  let h := rqMultSmall h r
  let c := roundAndEncode h
  let x := hash sha512 rEnc
  (c ++ hash sha512 (2 :: x ++ cache), rEnc, x)

/-- The loop of the key generation, over successive draws of `g`; `none` when they run out. -/
def drawG : List (List UInt8) → Option (Vector Int8 p × Vector Int8 p)
  | [] => none
  | random :: rest =>
    let g := smallRandom random
    let (v, vp) := cryptoCoreInv3 g
    if vp = 0 then some (g, v) else drawG rest

/-- What the random generator fills in during a key generation. -/
structure KeypairDraws where
  g : List (List UInt8)
  f : List UInt8
  rho : Bytes 191

/-- `crypto_kem_keypair`: the public and the secret key. -/
def cryptoKemKeypair (draws : KeypairDraws) : Option (List UInt8 × List UInt8) :=
  match drawG draws.g with
  | none => none
  | some (g, v) =>
    let f := shortRandom draws.f
    let h := rqRecip3 f
    let h := rqMultSmall h g
    let pk := rqEncode h
    some (pk, smallEncode f ++ smallEncode v ++ pk ++ draws.rho.toList ++ hash sha512 (4 :: pk))

/-- `crypto_kem_enc`: the ciphertext and the session key. -/
def cryptoKemEnc (pk random : List UInt8) : List UInt8 × List UInt8 :=
  let cache := hash sha512 (4 :: pk)
  let r := shortRandom random
  let (c, _, x) := hide sha512 r pk cache
  (c, hash sha512 (1 :: x ++ c))

/-- `crypto_verify_1039`: zero for equal strings, else all ones. -/
def cryptoVerify1039 (x y : List UInt8) : Int32 :=
  let differentbits := (List.range 1039).foldl
    (fun bits i => bits ||| (x.getD i 0 ^^^ y.getD i 0).toUInt32) (0 : UInt32)
  ((1 : UInt32) &&& ((differentbits - 1) >>> 8)).toInt32 - 1

/-- The small polynomial that `crypto_kem_dec` recovers from a ciphertext. -/
def recover (c sk : List UInt8) : Vector Int8 p :=
  let d := roundedDecode (c.take 1007)
  let f := smallDecode (sk.take 191)
  let d := rqMultSmall d f
  let d := rqMult3 d
  let e := r3FromRq d
  let v := smallDecode ((sk.drop 191).take 191)
  let r := r3Mult e v
  cryptoCoreWforce r

/-- `crypto_kem_dec`: the session key. -/
def cryptoKemDec (c sk : List UInt8) : List UInt8 :=
  let pk := (sk.drop 382).take 1158
  let rho := (sk.drop 1540).take 191
  let cache := (sk.drop 1731).take 32
  let r := recover c sk
  let (cnew, rEnc, _) := hide sha512 r pk cache
  let mask := cryptoVerify1039 c cnew
  let rEnc := rEnc.headD 0 :: (List.range 191).map fun i =>
    let byte := rEnc.getD (i + 1) 0
    byte ^^^ (mask &&& (byte ^^^ rho.getD i 0).toUInt32.toInt32).toUInt32.toUInt8
  let x := hash sha512 rEnc
  hash sha512 ((1 + mask).toUInt32.toUInt8 :: x ++ c)

end Functions

/-! ### What is drawn -/

/-- Coefficients `-1`, `0` and `1`. -/
def Small (f : Vector Int8 p) : Prop := ∀ i, |smallInts f i| ≤ 1

/-- A short polynomial: small, with `w` nonzero coefficients. -/
def Short (f : Vector Int8 p) : Prop := Small f ∧ weight p (smallInts f) = 286

/-- The coefficient of a word's low bits. -/
theorem toInt_lowBits {u : UInt32} (h : u.toNat ≤ 2) :
    ((u - 1).toInt32.toInt8).toInt = u.toNat - 1 := by
  rcases (show u = 0 ∨ u = 1 ∨ u = 2 by
    rcases (show u.toNat = 0 ∨ u.toNat = 1 ∨ u.toNat = 2 by omega) with h | h | h
    · exact Or.inl (UInt32.toNat_inj.mp h)
    · exact Or.inr (Or.inl (UInt32.toNat_inj.mp h))
    · exact Or.inr (Or.inr (UInt32.toNat_inj.mp h))) with rfl | rfl | rfl <;> rfl

/-- `Small_random` draws small polynomials. -/
theorem small_smallRandom (random : List UInt8) : Small (smallRandom random) := by
  intro i
  rw [smallInts]
  by_cases hi : i < p
  · rw [smallRandom, entry_tabulate, if_pos hi]
    generalize decodePxint32 random i = u
    have hand : (u &&& 0x3FFFFFFF).toNat = u.toNat % 2 ^ 30 := by
      rw [UInt32.toNat_and]
      exact Nat.and_two_pow_sub_one_eq_mod _ 30
    have hshift : (((u &&& 0x3FFFFFFF) * 3) >>> 30).toNat ≤ 2 := by
      rw [UInt32.toNat_shiftRight, UInt32.toNat_mul, hand]
      simp only [UInt32.reduceToNat, Nat.reduceMod, Nat.shiftRight_eq_div_pow]
      rw [Nat.mod_eq_of_lt (a := u.toNat % 2 ^ 30 * 3) (by omega)]
      omega
    rw [toInt_lowBits hshift]
    exact abs_le.mpr ⟨by omega, by omega⟩
  · rw [entry_of_le _ (not_lt.mp hi)]
    decide

/-- The words that `Short_random` sorts: even for the first `w`, 1 modulo 4 for the others. -/
def shortWord (L : ℕ → UInt32) (i : ℕ) : UInt32 :=
  if i < w then L i &&& 0xFFFFFFFE else (L i &&& 0xFFFFFFFD) ||| 1

/-- The two low bits: 0 or 2 in the first `w` words, 1 in the others. -/
theorem lowBits_shortWord (L : ℕ → UInt32) (i : ℕ) :
    (shortWord L i &&& 3).toNat = 0 ∧ i < w ∨ (shortWord L i &&& 3).toNat = 2 ∧ i < w ∨
      (shortWord L i &&& 3).toNat = 1 ∧ w ≤ i := by
  rw [shortWord]
  by_cases hi : i < w
  · have hand : ((L i &&& 0xFFFFFFFE) &&& 3).toNat = ((L i).toNat.testBit 1).toNat * 2 ^ 1 := by
      rw [UInt32.and_assoc, UInt32.toNat_and, ← Nat.and_two_pow]
      rfl
    rw [if_pos hi, hand]
    cases (L i).toNat.testBit 1 with
    | false => exact Or.inl ⟨rfl, hi⟩
    | true => exact Or.inr (Or.inl ⟨rfl, hi⟩)
  · have hone : (((L i &&& 0xFFFFFFFD) ||| 1) &&& 3).toNat = 1 := by
      rw [UInt32.toNat_and, UInt32.toNat_or, UInt32.toNat_and, Nat.and_or_distrib_right,
        Nat.and_assoc]
      change (L i).toNat &&& (2 ^ 1 - 1) ||| 1 = 1
      rw [Nat.and_two_pow_sub_one_eq_mod]
      rcases Nat.mod_two_eq_zero_or_one (L i).toNat with h | h <;> rw [h] <;> rfl
    rw [if_neg hi]
    exact Or.inr (Or.inr ⟨hone, not_lt.mp hi⟩)

/-- How much a word counts for the weight. -/
def wordWeight (u : UInt32) : ℤ := |(((u &&& 3) - 1).toInt32.toInt8).toInt|

/-- The first `w` words have weight one, the others none. -/
theorem wordWeight_shortWord (L : ℕ → UInt32) (i : ℕ) :
    wordWeight (shortWord L i) = if i < w then 1 else 0 := by
  rw [wordWeight]
  rcases lowBits_shortWord L i with ⟨h, hi⟩ | ⟨h, hi⟩ | ⟨h, hi⟩
  · rw [toInt_lowBits (by omega), h, if_pos hi]
    rfl
  · rw [toInt_lowBits (by omega), h, if_pos hi]
    rfl
  · rw [toInt_lowBits (by omega), h, if_neg (not_lt.mpr hi)]
    rfl

/-- A sum over a range as one over a list. -/
theorem sum_range_eq_list (n : ℕ) (f : ℕ → ℤ) :
    ∑ i ∈ Finset.range n, f i = ((List.range n).map f).sum := by
  rfl

/-- `Short_random` draws short polynomials: the sort only changes the places. -/
theorem short_shortRandom (random : List UInt8) : Short (shortRandom random) := by
  set L := shortWord (decodePxint32 random) with hL
  have hperm := cryptoSortUint32_perm L p
  have hentry : ∀ i, i < p → entry (shortRandom random) i =
      ((cryptoSortUint32 L p i &&& 3) - 1).toInt32.toInt8 := by
    intro i hi
    rw [shortRandom, entry_tabulate, if_pos hi]
    rfl
  constructor
  · intro i
    rw [smallInts]
    by_cases hi : i < p
    · have hmem : cryptoSortUint32 L p i ∈ (List.range p).map L :=
        hperm.mem_iff.mp (List.mem_map_of_mem (List.mem_range.mpr hi))
      obtain ⟨j, -, hj⟩ := List.mem_map.mp hmem
      rw [hentry i hi, ← hj]
      have hweight := wordWeight_shortWord (decodePxint32 random) j
      rw [wordWeight, ← hL] at hweight
      rw [hweight]
      split_ifs <;> norm_num
    · rw [entry_of_le _ (not_lt.mp hi)]
      decide
  · have hsum : weight p (smallInts (shortRandom random)) =
        ((List.range p).map (wordWeight ∘ cryptoSortUint32 L p)).sum := by
      rw [weight, sum_range_eq_list]
      apply congrArg List.sum
      apply List.map_congr_left
      intro i hi
      rw [smallInts, hentry i (List.mem_range.mp hi)]
      rfl
    have hsorted := (hperm.map wordWeight).sum_eq
    rw [List.map_map, List.map_map] at hsorted
    have hcount : (List.range p).map (wordWeight ∘ L) =
        (List.range p).map fun i => if i < w then 1 else 0 := by
      apply List.map_congr_left
      intro i _
      exact wordWeight_shortWord _ i
    rw [hsum, hsorted, hcount, ← sum_range_eq_list, sum_ones (by decide)]
    rfl

/-! ### The forced weight -/

/-- The low bit of a small coefficient is its absolute value. -/
theorem toInt_and_one {x : Int8} (h : |x.toInt| ≤ 1) : (x &&& 1).toInt32.toInt = |x.toInt| := by
  rcases small_cases h with rfl | rfl | rfl <;> rfl

/-- The count of the odd coefficients. -/
theorem toInt_weight {r : Vector Int8 p} (hr : Small r) {n : ℕ} (hn : n ≤ p) :
    ((List.range n).foldl (fun weight i => weight + (entry r i &&& 1).toInt32) (0 : Int32)).toInt =
      weight n (smallInts r) ∧ 0 ≤ weight n (smallInts r) ∧ weight n (smallInts r) ≤ n := by
  induction n with
  | zero => exact ⟨rfl, le_refl _, le_refl _⟩
  | succ n ih =>
    obtain ⟨hsum, hpos, hle⟩ := ih (by omega)
    have hn' : n < 761 := hn
    have hterm := hr n
    have hnonneg := abs_nonneg (smallInts r n)
    have hnext : weight (n + 1) (smallInts r) = weight n (smallInts r) + |smallInts r n| :=
      Finset.sum_range_succ _ _
    refine ⟨?_, by omega, by push_cast; omega⟩
    rw [List.range_succ, List.foldl_append, List.foldl_cons, List.foldl_nil, Int32.toInt_add,
      toInt_and_one hterm, hsum, hnext]
    exact bmod_word (by rw [smallInts] at hnonneg; omega) (by rw [smallInts] at hterm; omega)

/-- A polynomial of weight `w` stays. -/
theorem cryptoCoreWforce_short {r : Vector Int8 p} (hr : Short r) : cryptoCoreWforce r = r := by
  have hmask : weightwMask r = 0 := by
    have hsum := (toInt_weight hr.1 le_rfl).1
    rw [hr.2] at hsum
    rw [weightwMask, int16NonzeroMask_eq, if_pos]
    rw [← Int16.toInt_inj, Int32.toInt_toInt16, Int32.toInt_sub, hsum]
    rfl
  apply ext_entry
  intro i hi
  rw [cryptoCoreWforce, hmask, entry_tabulate, if_pos hi, show ~~~(0 : Int32) = -1 from rfl,
    Int32.and_neg_one, Int32.and_neg_one, Int32.xor_assoc, Int32.xor_self, Int32.xor_zero,
    Int8.toInt8_toInt32, ite_self]

/-! ### The comparison -/

/-- Nothing is set in either word. -/
theorem or_eq_zero {a b : UInt32} (h : a ||| b = 0) : a = 0 ∧ b = 0 := by
  have h := congrArg UInt32.toNat h
  rw [UInt32.toNat_or, show (0 : UInt32).toNat = 0 from rfl, Nat.or_eq_zero_iff] at h
  exact ⟨UInt32.toNat_inj.mp h.1, UInt32.toNat_inj.mp h.2⟩

/-- The bits in which two strings differ, one below the other. -/
theorem differentbits_spec (x y : List UInt8) (n : ℕ) :
    let bits := (List.range n).foldl
      (fun bits i => bits ||| (x.getD i 0 ^^^ y.getD i 0).toUInt32) (0 : UInt32)
    bits.toNat < 256 ∧ (bits = 0 ↔ ∀ i < n, x.getD i 0 = y.getD i 0) := by
  intro bits
  induction n with
  | zero => exact ⟨Nat.zero_lt_succ 255, iff_of_true rfl fun i hi => absurd hi (Nat.not_lt_zero i)⟩
  | succ n ih =>
    have hbits : bits = (List.range n).foldl
        (fun bits i => bits ||| (x.getD i 0 ^^^ y.getD i 0).toUInt32) (0 : UInt32) |||
          (x.getD n 0 ^^^ y.getD n 0).toUInt32 := by
      simp only [bits]
      rw [List.range_succ, List.foldl_append, List.foldl_cons, List.foldl_nil]
    have hbyte : (x.getD n 0 ^^^ y.getD n 0).toUInt32 = 0 ↔ x.getD n 0 = y.getD n 0 := by
      constructor
      · intro h
        have h := congrArg UInt32.toNat h
        rw [UInt8.toNat_toUInt32] at h
        have hxor : x.getD n 0 ^^^ y.getD n 0 = 0 := UInt8.toNat_inj.mp h
        calc x.getD n 0 = x.getD n 0 ^^^ y.getD n 0 ^^^ y.getD n 0 := by
              rw [UInt8.xor_assoc, UInt8.xor_self, UInt8.xor_zero]
          _ = y.getD n 0 := by rw [hxor, UInt8.zero_xor]
      · intro h
        rw [h, UInt8.xor_self]
        rfl
    constructor
    · rw [hbits, UInt32.toNat_or, UInt8.toNat_toUInt32]
      exact Nat.or_lt_two_pow (n := 8) ih.1 (UInt8.toNat_lt _)
    · constructor
      · intro hzero
        rw [hbits] at hzero
        obtain ⟨h1, h2⟩ := or_eq_zero hzero
        intro i hi
        rcases Nat.lt_succ_iff_lt_or_eq.mp hi with hlt | rfl
        · exact ih.2.mp h1 i hlt
        · exact hbyte.mp h2
      · intro h
        rw [hbits, ih.2.mpr fun i hi => h i (by omega), hbyte.mpr (h n (by omega))]
        rfl

/-- `crypto_verify_1039` compares 1039 bytes. -/
theorem cryptoVerify1039_eq {x y : List UInt8} (hx : x.length = 1039) (hy : y.length = 1039) :
    cryptoVerify1039 x y = if x = y then 0 else -1 := by
  obtain ⟨hlt, hiff⟩ := differentbits_spec x y 1039
  have hxy : (∀ i < 1039, x.getD i 0 = y.getD i 0) ↔ x = y := by
    constructor
    · intro h
      apply List.ext_getElem (by omega)
      intro i h1 h2
      have hi := h i (by omega)
      rwa [List.getD_eq_getElem _ _ h1, List.getD_eq_getElem _ _ h2] at hi
    · rintro rfl i _
      rfl
  rw [hxy] at hiff
  rw [cryptoVerify1039]
  generalize (List.range 1039).foldl _ _ = bits at hlt hiff
  split_ifs with heq
  · rw [hiff.mpr heq]
    rfl
  · have hne : bits.toNat ≠ 0 := fun h => heq (hiff.mp (UInt32.toNat_inj.mp h))
    have hshift : (bits - 1) >>> 8 = 0 := by
      apply UInt32.toNat_inj.mp
      rw [UInt32.toNat_shiftRight, UInt32.toNat_sub_of_le _ _ (UInt32.le_iff_toNat_le.mpr (by
        rw [show (1 : UInt32).toNat = 1 from rfl]; omega))]
      simp only [UInt32.reduceToNat, Nat.reduceMod, Nat.shiftRight_eq_div_pow]
      omega
    simp only [hshift]
    rfl

/-! ### Decryption -/

/-- The rounding error of a product. -/
def roundingError (a : Vector Int16 p) (i : ℕ) : ℤ :=
  if i < p then (roundFq (entry a i)).toInt - fqInts a i else 0

/-- Rounding to a multiple of three moves by at most one. -/
theorem roundingError_small {a : Vector Int16 p} (ha : ∀ i, Residue (fqInts a i)) (i : ℕ) :
    |roundingError a i| ≤ 1 := by
  rw [roundingError]
  split_ifs
  · obtain ⟨c, hc, hle, -⟩ := roundFq_toInt (ha i)
    rw [hc]
    exact hle
  · rw [abs_zero]
    exact zero_le_one

/-- The rounding errors end with the vector. -/
theorem below_roundingError (a : Vector Int16 p) : ZeroFrom p (roundingError a) := fun i hi => by
  rw [roundingError, if_neg (by omega)]

/-- The product with `3 f` as a polynomial over the integers. -/
theorem decrypt_ints {f g r : Vector Int8 p} {h : Vector Int16 p} (hf : Short f) (hg : Small g)
    (hr : Short r) (hh : ∀ i, Residue (fqInts h i))
    (hkey : value (trinomialRoot 4591 p) p (fqInts h) *
      (3 * value (trinomialRoot 4591 p) p (smallInts f)) =
        value (trinomialRoot 4591 p) p (smallInts g)) {k : ℕ} (hk : k < p) :
    let c : Vector Int16 p := tabulate p fun i => roundFq (entry (rqMultSmall h r) i)
    fqInts (rqMult3 (rqMultSmall c f)) k = mulMod p (smallInts r) (smallInts g) k +
      3 * mulMod p (smallInts f) (roundingError (rqMultSmall h r)) k := by
  intro c
  have hpos : 0 < p := by decide
  have hmax : p ≤ 3000 := by decide
  set x := trinomialRoot 4591 p
  have hprod : ∀ i, Residue (fqInts (rqMultSmall h r) i) := residue_rqMultSmall hmax hh hr.1
  have hc : ∀ i, Residue (fqInts c i) := by
    intro i
    by_cases hi : i < p
    · obtain ⟨d, hd, -, hle⟩ := roundFq_toInt (hprod i)
      have hle := abs_le.mp hle
      rw [fqInts, entry_tabulate, if_pos hi, hd]
      exact abs_le.mpr ⟨by omega, by omega⟩
    · rw [below_fqInts c i (not_lt.mp hi)]
      exact residue_zero
  have hd := residue_rqMult3 (residue_rqMultSmall hmax hc hf.1)
  -- the value of the rounded product is that of the product and of the error
  have hround : value x p (fqInts c) = value x p (fqInts (rqMultSmall h r)) +
      value x p (roundingError (rqMultSmall h r)) := by
    rw [value, value, value, ← Finset.sum_add_distrib]
    apply Finset.sum_congr rfl
    intro i hi
    have hi := Finset.mem_range.mp hi
    rw [fqInts, entry_tabulate, if_pos hi, roundingError, if_pos hi]
    push_cast
    ring
  have hvalue : value x p (fqInts (rqMult3 (rqMultSmall c f))) =
      value x p (fun k => mulMod p (smallInts r) (smallInts g) k +
        3 * mulMod p (smallInts f) (roundingError (rqMultSmall h r)) k) := by
    have hsum : value x p (fun k => mulMod p (smallInts r) (smallInts g) k +
        3 * mulMod p (smallInts f) (roundingError (rqMultSmall h r)) k) =
          value x p (mulMod p (smallInts r) (smallInts g)) +
            3 * value x p (mulMod p (smallInts f) (roundingError (rqMultSmall h r))) := by
      rw [value, value, value, Finset.mul_sum, ← Finset.sum_add_distrib]
      apply Finset.sum_congr rfl
      intro i _
      push_cast
      ring
    rw [hsum, value_rqMult3 (residue_rqMultSmall hmax hc hf.1), value_rqMultSmall hpos hmax hc hf.1,
      hround, value_rqMultSmall hpos hmax hh hr.1,
      value_mulMod hpos (below_smallInts r) (below_smallInts g) (trinomialRoot_pow 4591 p),
      value_mulMod hpos (below_smallInts f) (below_roundingError _) (trinomialRoot_pow 4591 p),
      ← hkey]
    ring
  have hcoeff := modEq_of_value_eq (by norm_num) (by decide) hvalue hk
  -- and these numbers are small
  have h1 := abs_mulMod_le (below_smallInts r) (below_smallInts g) hg hk
  have h2 := abs_mulMod_le (below_smallInts f) (below_roundingError (rqMultSmall h r))
    (roundingError_small hprod) hk
  rw [hr.2] at h1
  rw [hf.2] at h2
  have hbound : 2 * |mulMod p (smallInts r) (smallInts g) k +
      3 * mulMod p (smallInts f) (roundingError (rqMultSmall h r)) k| < (4591 : ℕ) := by
    have h3 := abs_add_le (mulMod p (smallInts r) (smallInts g) k)
      (3 * mulMod p (smallInts f) (roundingError (rqMultSmall h r)) k)
    rw [abs_mul, abs_of_pos (by norm_num : (0 : ℤ) < 3)] at h3
    push_cast
    omega
  rw [eq_bmod_of_cast (hd k).two_mul_lt rfl, eq_bmod_of_cast hbound hcoeff.symm]

/-- Modulo 3 the error drops out and the inverse of `g` leaves `r`. -/
theorem decrypt_small {f g v r : Vector Int8 p} {h : Vector Int16 p} (hf : Short f) (hg : Small g)
    (hv : Small v) (hr : Short r) (hh : ∀ i, Residue (fqInts h i))
    (hkey : value (trinomialRoot 4591 p) p (fqInts h) *
      (3 * value (trinomialRoot 4591 p) p (smallInts f)) =
        value (trinomialRoot 4591 p) p (smallInts g))
    (hinv : value (trinomialRoot 3 p) p (smallInts v) *
      value (trinomialRoot 3 p) p (smallInts g) = 1) :
    let c : Vector Int16 p := tabulate p fun i => roundFq (entry (rqMultSmall h r) i)
    r3Mult (r3FromRq (rqMult3 (rqMultSmall c f))) v = r := by
  intro c
  have hpos : 0 < p := by decide
  have hmax : p ≤ 3000 := by decide
  set x := trinomialRoot 3 p
  have hc : ∀ i, Residue (fqInts c i) := by
    intro i
    by_cases hi : i < p
    · obtain ⟨d, hd, -, hle⟩ := roundFq_toInt (residue_rqMultSmall hmax hh hr.1 i)
      have hle := abs_le.mp hle
      rw [fqInts, entry_tabulate, if_pos hi, hd]
      exact abs_le.mpr ⟨by omega, by omega⟩
    · rw [below_fqInts c i (not_lt.mp hi)]
      exact residue_zero
  have hd := residue_rqMult3 (residue_rqMultSmall hmax hc hf.1)
  set e := r3FromRq (rqMult3 (rqMultSmall c f))
  have he : Small e := small_r3FromRq hd
  have hvalueE : value x p (smallInts e) = value x p (smallInts r) * value x p (smallInts g) := by
    rw [← value_mulMod hpos (below_smallInts r) (below_smallInts g) (trinomialRoot_pow 3 p)]
    apply value_congr (m := 3)
    intro i hi
    have hthree : ((3 : ℤ) : ZMod 3) = 0 := by decide
    rw [r3FromRq_ints hd hi, cast_bmod, decrypt_ints hf hg hr hh hkey hi, Int.cast_add,
      Int.cast_mul, hthree, zero_mul, add_zero]
  have hvalue : value x p (smallInts (r3Mult e v)) = value x p (smallInts r) := by
    rw [value_r3Mult hpos hmax he hv, hvalueE, mul_assoc, mul_comm (value x p (smallInts g)), hinv,
      mul_one]
  exact ext_value_small (by decide) (small_r3Mult hmax he hv) hr.1 hvalue

/-! ### The key pair -/

section KeyPair

variable (sha512 : List UInt8 → Bytes 64)

/-- A hash has 32 bytes. -/
@[simp] theorem length_hash (input : List UInt8) : (hash sha512 input).length = 32 := by
  simp [hash]

/-- What the loop of the key generation ends with. -/
theorem drawG_spec {draws : List (List UInt8)} {g v : Vector Int8 p}
    (h : drawG draws = some (g, v)) : Small g ∧ Small v ∧
      value (trinomialRoot 3 p) p (smallInts v) *
        value (trinomialRoot 3 p) p (smallInts g) = 1 := by
  induction draws with
  | nil => cases h
  | cons random rest ih =>
    have hg := small_smallRandom random
    obtain ⟨hv, -, -, hinv⟩ := cryptoCoreInv3_spec (by decide) (by decide) hg
    rw [drawG] at h
    simp only at h
    split_ifs at h with hvp
    · rw [Option.some.injEq, Prod.mk.injEq] at h
      rw [← h.1, ← h.2]
      exact ⟨hg, hv, hinv hvp⟩
    · exact ih h

/-- The fields of a secret key. -/
structure KeyFields where
  f : Vector Int8 p
  v : Vector Int8 p
  pk : List UInt8
  rho : Bytes 191
  cache : List UInt8

/-- The secret key as bytes. -/
def KeyFields.secretKey (key : KeyFields) : List UInt8 :=
  smallEncode key.f ++ smallEncode key.v ++ key.pk ++ key.rho.toList ++ key.cache

/-- The fields of a secret key are read where they were written. -/
theorem KeyFields.read (key : KeyFields) (hpk : key.pk.length = 1158)
    (hcache : key.cache.length = 32) :
    key.secretKey.take 191 = smallEncode key.f ∧
      (key.secretKey.drop 191).take 191 = smallEncode key.v ∧
      (key.secretKey.drop 382).take 1158 = key.pk ∧
      (key.secretKey.drop 1540).take 191 = key.rho.toList ∧
      (key.secretKey.drop 1731).take 32 = key.cache ∧ key.secretKey.length = 1763 := by
  have h1 := length_smallEncode key.f
  have h2 := length_smallEncode key.v
  have h3 : key.rho.toList.length = 191 := by simp
  rw [secretKey]
  generalize smallEncode key.f = f at *
  generalize smallEncode key.v = v at *
  generalize key.pk = pk at *
  generalize key.rho.toList = rho at *
  generalize key.cache = cache at *
  refine ⟨?_, ?_, ?_, ?_, ?_, by simp only [List.length_append]; omega⟩
  · rw [List.append_assoc, List.append_assoc, List.append_assoc, ← h1, List.take_left]
  · rw [List.append_assoc, List.append_assoc, List.append_assoc, List.drop_left' h1, ← h2,
      List.take_left]
  · rw [List.append_assoc, List.append_assoc, List.drop_left' (by rw [List.length_append]; omega),
      ← hpk, List.take_left]
  · rw [List.append_assoc (f ++ v ++ pk),
      List.drop_left' (by simp only [List.length_append]; omega), ← h3, List.take_left]
  · rw [List.drop_left' (by simp only [List.length_append]; omega), ← hcache, List.take_length]

/-- The key pair that a successful key generation leaves. -/
theorem cryptoKemKeypair_spec {draws : KeypairDraws} {pk sk : List UInt8}
    (h : cryptoKemKeypair sha512 draws = some (pk, sk)) :
    ∃ (g v : Vector Int8 p), drawG draws.g = some (g, v) ∧
      pk = rqEncode (rqMultSmall (rqRecip3 (shortRandom draws.f)) g) ∧
      sk = (KeyFields.mk (shortRandom draws.f) v pk draws.rho
        (hash sha512 (4 :: pk))).secretKey := by
  rw [cryptoKemKeypair] at h
  cases hg : drawG draws.g with
  | none =>
    rw [hg] at h
    cases h
  | some gv =>
    obtain ⟨g, v⟩ := gv
    rw [hg] at h
    simp only [Option.some.injEq, Prod.mk.injEq] at h
    exact ⟨g, v, rfl, h.1.symm, by rw [← h.2, ← h.1]; rfl⟩

/-! ### Decapsulation -/

/-- The ciphertext of a small polynomial has its length. -/
theorem length_hide {r : Vector Int8 p} (hr : Small r) (pk cache : List UInt8) :
    (hide sha512 r pk cache).1.length = 1039 := by
  simp only [hide, List.length_append, length_hash]
  rw [length_roundAndEncode (residue_rqMultSmall (by decide) (residue_rqDecode pk) hr)]

/-- The bytes that are hashed after the comparison. -/
theorem maskedBytes {bytes rho : List UInt8} (hbytes : bytes.length = 191) (hrho : rho.length = 191)
    (b : Bool) :
    ((List.range 191).map fun i => (3 :: bytes).getD (i + 1) 0 ^^^ (mask b &&&
      ((3 :: bytes).getD (i + 1) 0 ^^^ rho.getD i 0).toUInt32.toInt32).toUInt32.toUInt8) =
      if b then rho else bytes := by
  apply List.ext_getElem
  · rw [List.length_map, List.length_range]
    split_ifs
    · exact hrho.symm
    · exact hbytes.symm
  · intro i h1 h2
    have hi : i < 191 := by simpa using h1
    rw [List.getElem_map, List.getElem_range, List.getD_cons_succ,
      List.getD_eq_getElem _ _ (by omega), List.getD_eq_getElem _ _ (by omega)]
    cases b with
    | false =>
      simp only [mask, Bool.false_eq_true, if_false, Int32.zero_and]
      exact UInt8.xor_zero
    | true =>
      have hback : ∀ x : UInt8, x.toUInt32.toInt32.toUInt32.toUInt8 = x := fun x => by simp
      simp only [mask, if_true, Int32.neg_one_and, hback]
      rw [← UInt8.xor_assoc, UInt8.xor_self, UInt8.zero_xor]

/-- Decapsulation derives the key from the recovered polynomial if that gives the ciphertext
again, else from the secret `rho`. -/
theorem cryptoKemDec_eq {c sk : List UInt8} (hc : c.length = 1039) (hsk : sk.length = 1763)
    (hr : Small (recover c sk)) :
    cryptoKemDec sha512 c sk =
      if c = (hide sha512 (recover c sk) ((sk.drop 382).take 1158) ((sk.drop 1731).take 32)).1 then
        hash sha512 (1 :: hash sha512 (3 :: smallEncode (recover c sk)) ++ c)
      else hash sha512 (0 :: hash sha512 (3 :: (sk.drop 1540).take 191) ++ c) := by
  have hrho : ((sk.drop 1540).take 191).length = 191 := by simp [hsk]
  have hmask := cryptoVerify1039_eq hc (length_hide sha512 hr ((sk.drop 382).take 1158)
    ((sk.drop 1731).take 32))
  have hbytes := maskedBytes (length_smallEncode (recover c sk)) hrho
  rw [cryptoKemDec]
  simp only [hmask]
  split_ifs with heq
  · exact congrArg (fun bytes => hash sha512 (1 :: hash sha512 (3 :: bytes) ++ c)) (hbytes false)
  · exact congrArg (fun bytes => hash sha512 (0 :: hash sha512 (3 :: bytes) ++ c)) (hbytes true)

/-- The key pairs that key generations return. -/
def IsKeyPair (pk sk : List UInt8) : Prop :=
  ∃ draws, cryptoKemKeypair sha512 draws = some (pk, sk)

section Keys

variable {sha512} {pk sk : List UInt8}

/-- A short polynomial is inverted modulo `q`. -/
theorem cryptoCoreInv_short {f : Vector Int8 p} (hf : Short f) : (cryptoCoreInv f).2 = 0 := by
  rw [cryptoCoreInv_flag]
  by_contra hzero
  have hweight : weight p (smallInts f) = 0 := by
    apply Finset.sum_eq_zero
    intro i hi
    rw [not_not.mp fun h => hzero ⟨i, Finset.mem_range.mp hi, h⟩, abs_zero]
  rw [hf.2] at hweight
  omega

/-- What the two halves of a key pair are made of. -/
theorem IsKeyPair.fields (h : IsKeyPair sha512 pk sk) :
    ∃ (f g v : Vector Int8 p) (rho : Bytes 191), Short f ∧ Small g ∧ Small v ∧
      value (trinomialRoot 3 p) p (smallInts v) * value (trinomialRoot 3 p) p (smallInts g) = 1 ∧
      pk = rqEncode (rqMultSmall (rqRecip3 f) g) ∧ pk.length = 1158 ∧
      sk = (KeyFields.mk f v pk rho (hash sha512 (4 :: pk))).secretKey := by
  obtain ⟨draws, hpair⟩ := h
  obtain ⟨g, v, hdraw, hpk, hsk⟩ := cryptoKemKeypair_spec sha512 hpair
  obtain ⟨hg, hv, hinv⟩ := drawG_spec hdraw
  have hres := residue_rqMultSmall (by decide)
    (cryptoCoreInv_spec (by decide) (by decide) (shortRandom draws.f)).1 hg
  exact ⟨shortRandom draws.f, g, v, draws.rho, short_shortRandom _, hg, hv, hinv, hpk,
    by rw [hpk, length_rqEncode hres], hsk⟩

/-- Where the parts of a secret key are. -/
theorem IsKeyPair.read (h : IsKeyPair sha512 pk sk) : (sk.drop 382).take 1158 = pk ∧
    (sk.drop 1731).take 32 = hash sha512 (4 :: pk) ∧ sk.length = 1763 ∧ pk.length = 1158 := by
  obtain ⟨f, g, v, rho, -, -, -, -, -, hpk, hsk⟩ := h.fields
  obtain ⟨-, -, hpkBytes, -, hcacheBytes, hskLen⟩ := KeyFields.read
    ⟨f, v, pk, rho, hash sha512 (4 :: pk)⟩ hpk (length_hash _ _)
  rw [← hsk] at hpkBytes hcacheBytes hskLen
  exact ⟨hpkBytes, hcacheBytes, hskLen, hpk⟩

/-- What a ciphertext for a key pair is decrypted to. -/
theorem IsKeyPair.recover (h : IsKeyPair sha512 pk sk) {r : Vector Int8 p} (hr : Short r)
    (cache : List UInt8) : recover (hide sha512 r pk cache).1 sk = r := by
  obtain ⟨f, g, v, rho, hf, hg, hv, hinv, hpk, hpkLen, hsk⟩ := h.fields
  obtain ⟨hrecip, -, -, hinverse⟩ := cryptoCoreInv_spec (by decide) (by decide) f
  have hh := residue_rqMultSmall (by decide) hrecip hg
  have hkey : value (trinomialRoot 4591 p) p (fqInts (rqMultSmall (rqRecip3 f) g)) *
      (3 * value (trinomialRoot 4591 p) p (smallInts f)) =
        value (trinomialRoot 4591 p) p (smallInts g) := by
    rw [value_rqMultSmall (by decide) (by decide) hrecip hg]
    linear_combination value (trinomialRoot 4591 p) p (smallInts g) *
      hinverse (cryptoCoreInv_short hf)
  have hprod := residue_rqMultSmall (by decide) hh hr.1
  obtain ⟨hfBytes, hvBytes, -⟩ := KeyFields.read
    ⟨f, v, pk, rho, hash sha512 (4 :: pk)⟩ hpkLen (length_hash _ _)
  have hct : ((hide sha512 r pk cache).1).take 1007 =
      roundAndEncode (rqMultSmall (rqMultSmall (rqRecip3 f) g) r) := by
    simp only [hide]
    rw [hpk, rqDecode_rqEncode hh, ← length_roundAndEncode hprod, List.take_left]
  rw [Sntrup.recover, hct, roundedDecode_roundAndEncode hprod, hsk, hfBytes, hvBytes,
    smallDecode_smallEncode hf.1, smallDecode_smallEncode hv]
  simp only [decrypt_small hf hg hv hr hh hkey hinv]
  exact cryptoCoreWforce_short hr

/-- Decapsulation finds the session key of every encapsulation to a generated key. -/
theorem IsKeyPair.correct (h : IsKeyPair sha512 pk sk) (random : List UInt8) :
    cryptoKemDec sha512 (cryptoKemEnc sha512 pk random).1 sk =
      (cryptoKemEnc sha512 pk random).2 := by
  have hr := short_shortRandom random
  have hrecover := h.recover hr (hash sha512 (4 :: pk))
  obtain ⟨hpkBytes, hcacheBytes, hskLen, -⟩ := h.read
  simp only [cryptoKemEnc]
  rw [cryptoKemDec_eq sha512 (length_hide sha512 hr.1 _ _) hskLen (by rw [hrecover]; exact hr.1),
    hrecover, hpkBytes, hcacheBytes, if_pos rfl]
  rfl

end Keys

end KeyPair

end SimpleGo.Sntrup
