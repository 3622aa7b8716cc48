import Mathlib.Data.ZMod.Basic
import Mathlib.FieldTheory.Finite.Basic
import Mathlib.Tactic.NormNum.Prime

/-!
# The arithmetic of the post-quantum key exchange

Residues modulo 3 and modulo `q = 4591` are kept as the numbers nearest to zero in `int8` and
`int16` words. The code reduces without a division: it multiplies by an approximation of the
inverse of the modulus, shifts right and subtracts, all in `int32`. On the range that each
function is made for the result is `Int.bmod` and no intermediate value overflows. The other
branch-free pieces are masks: all ones or zero from a comparison, and an exchange under a mask.
-/

namespace SimpleGo.Sntrup

/-! ### Parameters -/

/-- `p`, the number of coefficients. -/
def p : ℕ := 761

/-- `w`, the weight of a short polynomial. -/
def w : ℕ := 286

/-- `q`. -/
abbrev q : Int32 := 4591

/-- `q14`: closest integer to `2 ^ 14 / q`. -/
abbrev q14 : Int32 := 4

/-- `q18`: closest integer to `2 ^ 18 / q`. -/
abbrev q18 : Int32 := 57

/-- `q27`: closest integer to `2 ^ 27 / q`. -/
abbrev q27 : Int32 := 29235

/-! ### Reductions -/

/-- `Fq_freeze`. -/
def fqFreeze (x : Int32) : Int16 :=
  let x := x - q * ((q18 * x) >>> 18)
  let x := x - q * ((q27 * x + 67108864) >>> 27)
  x.toInt16

/-- `Fq_bigfreeze`. -/
def fqBigfreeze (x : Int32) : Int16 :=
  let x := x - q * ((q14 * x) >>> 14)
  let x := x - q * ((q18 * x) >>> 18)
  let x := x - q * ((q27 * x + 67108864) >>> 27)
  let x := x - q * ((q27 * x + 67108864) >>> 27)
  x.toInt16

/-- `F3_freeze`. -/
def f3Freeze (x : Int16) : Int8 :=
  let x := x.toInt32
  (x - (3 : Int32) * ((10923 * x + 16384) >>> 15)).toInt8

/-- The shift of a signed word, by a constant. -/
theorem toInt_sshiftRight (x s : Int32) {t : ℕ} (hs : s.toBitVec.smod 32 = BitVec.ofNat 32 t)
    (ht : t < 32) : (x >>> s).toInt = x.toInt / 2 ^ t := by
  have hshift : (x >>> s).toBitVec = x.toBitVec.sshiftRight' (s.toBitVec.smod 32) := rfl
  rw [← Int32.toInt_toBitVec, hshift, hs, BitVec.sshiftRight', BitVec.toInt_sshiftRight,
    Int.shiftRight_eq_div_pow, BitVec.toNat_ofNat, Nat.mod_eq_of_lt (by omega),
    Int32.toInt_toBitVec]
  norm_cast

/-- An arithmetic shift by 14 divides by its power of two. -/
@[simp] theorem toInt_shiftRight_14 (x : Int32) : (x >>> 14).toInt = x.toInt / 2 ^ 14 :=
  toInt_sshiftRight x 14 rfl (by decide)

/-- The shift by 15. -/
@[simp] theorem toInt_shiftRight_15 (x : Int32) : (x >>> 15).toInt = x.toInt / 2 ^ 15 :=
  toInt_sshiftRight x 15 rfl (by decide)

/-- The shift by 18. -/
@[simp] theorem toInt_shiftRight_18 (x : Int32) : (x >>> 18).toInt = x.toInt / 2 ^ 18 :=
  toInt_sshiftRight x 18 rfl (by decide)

/-- The shift by 27. -/
@[simp] theorem toInt_shiftRight_27 (x : Int32) : (x >>> 27).toInt = x.toInt / 2 ^ 27 :=
  toInt_sshiftRight x 27 rfl (by decide)

/-- A value within the bounds of `int32` is not wrapped. -/
theorem bmod_word {x : ℤ} (h : -2 ^ 31 ≤ x) (h' : x < 2 ^ 31) : x.bmod (2 ^ 32) = x :=
  Int.bmod_eq_of_le_mul_two (by norm_num; omega) (by norm_num; omega)

/-- A value of 16 bits is its own residue. -/
theorem bmod_halfword {x : ℤ} (h : -2 ^ 15 ≤ x) (h' : x < 2 ^ 15) : x.bmod (2 ^ 16) = x :=
  Int.bmod_eq_of_le_mul_two (by norm_num; omega) (by norm_num; omega)

/-- A value of 8 bits is its own residue. -/
theorem bmod_byte {x : ℤ} (h : -2 ^ 7 ≤ x) (h' : x < 2 ^ 7) : x.bmod (2 ^ 8) = x :=
  Int.bmod_eq_of_le_mul_two (by norm_num; omega) (by norm_num; omega)

/-- The number nearest to zero is the one in the middle interval. -/
theorem eq_bmod {x y k : ℤ} {m : ℕ} (hy : y = x - m * k) (h : -(m : ℤ) < 2 * y)
    (h' : 2 * y < m) : y = x.bmod m := by
  rw [← Int.bmod_eq_of_le_mul_two (x := y) (y := m) (by omega) (by omega), hy,
    Int.sub_mul_bmod_self_left]

/-- One reduction by `57 / 2 ^ 18`. -/
theorem toInt_reduce_18 {x : Int32} (h : |x.toInt| ≤ 14000000) :
    (x - q * ((q18 * x) >>> 18)).toInt = x.toInt - 4591 * (57 * x.toInt / 2 ^ 18) := by
  have h := abs_le.mp h
  simp (disch := omega) only [Int32.toInt_sub, Int32.toInt_mul, toInt_shiftRight_18,
    show q.toInt = 4591 from rfl, show q18.toInt = 57 from rfl, bmod_word]

/-- One reduction by `4 / 2 ^ 14`. -/
theorem toInt_reduce_14 {x : Int32} (h : |x.toInt| ≤ 14000000) :
    (x - q * ((q14 * x) >>> 14)).toInt = x.toInt - 4591 * (4 * x.toInt / 2 ^ 14) := by
  have h := abs_le.mp h
  simp (disch := omega) only [Int32.toInt_sub, Int32.toInt_mul, toInt_shiftRight_14,
    show q.toInt = 4591 from rfl, show q14.toInt = 4 from rfl, bmod_word]

/-- One rounded reduction by `29235 / 2 ^ 27`. -/
theorem toInt_reduce_27 {x : Int32} (h : |x.toInt| ≤ 70000) :
    (x - q * ((q27 * x + 67108864) >>> 27)).toInt =
      x.toInt - 4591 * ((29235 * x.toInt + 67108864) / 2 ^ 27) := by
  have h := abs_le.mp h
  simp (disch := omega) only [Int32.toInt_sub, Int32.toInt_mul, Int32.toInt_add,
    toInt_shiftRight_27, show q.toInt = 4591 from rfl, show q27.toInt = 29235 from rfl,
    show (67108864 : Int32).toInt = 67108864 from rfl, bmod_word]

/-- `Fq_freeze` is the reduction modulo `q`. -/
theorem fqFreeze_toInt {x : Int32} (h : |x.toInt| < 7000000) :
    (fqFreeze x).toInt = x.toInt.bmod 4591 := by
  have hx := abs_lt.mp h
  have h1 := toInt_reduce_18 (x := x) (by omega)
  set y := x - q * ((q18 * x) >>> 18) with hy
  have h2 := toInt_reduce_27 (x := y) (abs_le.mpr ⟨by omega, by omega⟩)
  rw [fqFreeze, ← hy, Int32.toInt_toInt16, h2, bmod_halfword (by omega) (by omega)]
  exact eq_bmod (k := 57 * x.toInt / 2 ^ 18 + (29235 * y.toInt + 67108864) / 2 ^ 27)
    (by push_cast; omega) (by omega) (by omega)

/-- `Fq_bigfreeze` is the reduction modulo `q` of a product of two residues, and of a
difference of two products. -/
theorem fqBigfreeze_toInt {x : Int32} (h : |x.toInt| ≤ 14000000) :
    (fqBigfreeze x).toInt = x.toInt.bmod 4591 := by
  have hx := abs_le.mp h
  have h1 := toInt_reduce_14 h
  set y := x - q * ((q14 * x) >>> 14) with hy
  have h2 := toInt_reduce_18 (x := y) (abs_le.mpr ⟨by omega, by omega⟩)
  set z := y - q * ((q18 * y) >>> 18) with hz
  have h3 := toInt_reduce_27 (x := z) (abs_le.mpr ⟨by omega, by omega⟩)
  set u := z - q * ((q27 * z + 67108864) >>> 27) with hu
  have h4 := toInt_reduce_27 (x := u) (abs_le.mpr ⟨by omega, by omega⟩)
  rw [fqBigfreeze, ← hy, ← hz, ← hu, Int32.toInt_toInt16, h4, bmod_halfword (by omega) (by omega)]
  exact eq_bmod (k := 4 * x.toInt / 2 ^ 14 + 57 * y.toInt / 2 ^ 18 +
    (29235 * z.toInt + 67108864) / 2 ^ 27 + (29235 * u.toInt + 67108864) / 2 ^ 27)
    (by push_cast; omega) (by omega) (by omega)

/-- `F3_freeze` is the reduction modulo 3. -/
theorem f3Freeze_toInt {x : Int16} (h : -16384 ≤ x.toInt) (h' : x.toInt < 16384) :
    (f3Freeze x).toInt = x.toInt.bmod 3 := by
  have hreduce : (x.toInt32 - (3 : Int32) * ((10923 * x.toInt32 + 16384) >>> 15)).toInt =
      x.toInt - 3 * ((10923 * x.toInt + 16384) / 2 ^ 15) := by
    simp (disch := omega) only [Int32.toInt_sub, Int32.toInt_mul, Int32.toInt_add,
      toInt_shiftRight_15, Int16.toInt_toInt32, show (3 : Int32).toInt = 3 from rfl,
      show (10923 : Int32).toInt = 10923 from rfl, show (16384 : Int32).toInt = 16384 from rfl,
      bmod_word]
  rw [f3Freeze, Int32.toInt_toInt8, hreduce, bmod_byte (by omega) (by omega)]
  exact eq_bmod rfl (by omega) (by omega)

/-! ### Masks -/

/-- `int16_nonzero_mask`: all ones for a nonzero word. -/
def int16NonzeroMask (x : Int16) : Int32 :=
  let u := x.toUInt16
  let v := u.toUInt32
  let v := ~~~v + 1
  (-(v >>> 31).toInt32)

/-- `int16_negative_mask`: all ones for a negative word. -/
def int16NegativeMask (x : Int16) : Int32 :=
  let u := x.toUInt16
  (-(u >>> 15).toUInt32.toInt32)

/-- All ones exactly for a word that is not zero. -/
theorem int16NonzeroMask_eq (x : Int16) : int16NonzeroMask x = if x = 0 then 0 else -1 := by
  have hlt := x.toUInt16.toNat_lt
  have hv : (~~~x.toUInt16.toUInt32 + 1) >>> 31 = if x.toUInt16.toNat = 0 then 0 else 1 := by
    apply UInt32.toNat_inj.mp
    rw [UInt32.toNat_shiftRight, UInt32.toNat_add, UInt32.toNat_not, UInt16.toNat_toUInt32]
    simp only [UInt32.reduceToNat, Nat.reduceMod, Nat.shiftRight_eq_div_pow, UInt32.size]
    split_ifs with hzero
    · rw [hzero]
      rfl
    · change _ = 1
      omega
  have hiff : x.toUInt16.toNat = 0 ↔ x = 0 := by
    constructor
    · intro hzero
      have hu : x.toUInt16 = 0 := UInt16.toNat_inj.mp hzero
      rw [← Int16.toInt16_toUInt16 x, hu]
      rfl
    · rintro rfl
      rfl
  rw [int16NonzeroMask, hv]
  simp only [hiff]
  split_ifs <;> rfl

/-- All ones exactly for a negative word. -/
theorem int16NegativeMask_eq (x : Int16) :
    int16NegativeMask x = if x.toInt < 0 then -1 else 0 := by
  have hlt := x.toUInt16.toNat_lt
  have hint : x.toInt = (x.toUInt16.toNat : ℤ).bmod (2 ^ 16) := BitVec.toInt_eq_toNat_bmod _
  have hv : x.toUInt16 >>> 15 = if x.toInt < 0 then 1 else 0 := by
    apply UInt16.toNat_inj.mp
    rw [UInt16.toNat_shiftRight]
    simp only [UInt16.reduceToNat, Nat.reduceMod, Nat.shiftRight_eq_div_pow]
    rw [Int.bmod_def] at hint
    split_ifs at hint ⊢ <;> simp only [UInt16.reduceToNat] <;> omega
  rw [int16NegativeMask, hv]
  split_ifs <;> rfl

/-- `t = swap & (a ^ b); a ^= (Fq) t; b ^= (Fq) t`. -/
def maskSwapFq (swap : Int32) (a b : Int16) : Int16 × Int16 :=
  let t := swap &&& (a.toInt32 ^^^ b.toInt32)
  (a ^^^ t.toInt16, b ^^^ t.toInt16)

/-- `t = swap & (a ^ b); a ^= (small) t; b ^= (small) t`. -/
def maskSwapSmall (swap : Int32) (a b : Int8) : Int8 × Int8 :=
  let t := swap &&& (a.toInt32 ^^^ b.toInt32)
  (a ^^^ t.toInt8, b ^^^ t.toInt8)

/-- The mask of a condition. -/
def mask (b : Bool) : Int32 := if b then -1 else 0

/-- Under a mask the two words are exchanged or left. -/
theorem maskSwapFq_mask (b : Bool) (x y : Int16) :
    maskSwapFq (mask b) x y = if b then (y, x) else (x, y) := by
  cases b with
  | false => simp [maskSwapFq, mask]
  | true =>
    simp only [maskSwapFq, mask, if_true, Int32.neg_one_and, Int32.toInt16_xor,
      Int16.toInt16_toInt32]
    rw [← Int16.xor_assoc, Int16.xor_self, Int16.zero_xor, Int16.xor_comm x y, ← Int16.xor_assoc,
      Int16.xor_self, Int16.zero_xor]

/-- The same for small coefficients. -/
theorem maskSwapSmall_mask (b : Bool) (x y : Int8) :
    maskSwapSmall (mask b) x y = if b then (y, x) else (x, y) := by
  cases b with
  | false => simp [maskSwapSmall, mask]
  | true =>
    simp only [maskSwapSmall, mask, if_true, Int32.neg_one_and, Int32.toInt8_xor,
      Int8.toInt8_toInt32]
    rw [← Int8.xor_assoc, Int8.xor_self, Int8.zero_xor, Int8.xor_comm x y, ← Int8.xor_assoc,
      Int8.xor_self, Int8.zero_xor]

/-! ### The reciprocal -/

/-- `while (i < q - 2) ai = Fq_bigfreeze(a1 * ai)`, for a number of rounds. -/
def recipLoop (a1 : Int16) : (rounds : ℕ) → Int16
  | 0 => a1
  | rounds + 1 => fqBigfreeze (a1.toInt32 * (recipLoop a1 rounds).toInt32)

/-- `Fq_recip`: `i` runs from 1 to `q - 3`. -/
def fqRecip (a1 : Int16) : Int16 := recipLoop a1 4588

/-- A residue of `Fq`. -/
def Residue (x : ℤ) : Prop := |x| ≤ 2295

/-- Zero is a residue. -/
theorem residue_zero : Residue 0 := by
  rw [Residue, abs_zero]
  norm_num

/-- One is a residue. -/
theorem residue_one : Residue 1 := by
  rw [Residue]
  norm_num

/-- What is reduced modulo `q` is a residue. -/
theorem residue_bmod (x : ℤ) : Residue (x.bmod 4591) := by
  rw [Residue, abs_le, Int.bmod_def]
  split_ifs <;> omega

/-- A residue modulo `m` and what it was reduced from are the same modulo `m`. -/
theorem cast_bmod (x : ℤ) (m : ℕ) : ((x.bmod m : ℤ) : ZMod m) = x := by
  rw [ZMod.intCast_eq_intCast_iff_dvd_sub]
  exact Int.dvd_self_sub_bmod

/-- The product of two residues fits `int32`. -/
theorem toInt_mul_residue {a b : Int16} (ha : Residue a.toInt) (hb : Residue b.toInt) :
    (a.toInt32 * b.toInt32).toInt = a.toInt * b.toInt ∧ |a.toInt * b.toInt| ≤ 2295 * 2295 := by
  have hle : |a.toInt * b.toInt| ≤ 2295 * 2295 := by
    rw [abs_mul]
    exact mul_le_mul ha hb (abs_nonneg _) (by norm_num)
  have h := abs_le.mp hle
  refine ⟨?_, hle⟩
  rw [Int32.toInt_mul, Int16.toInt_toInt32, Int16.toInt_toInt32, bmod_word (by omega) (by omega)]

/-- Each round of the loop multiplies by `a1` once more. -/
theorem recipLoop_spec {a1 : Int16} (h : Residue a1.toInt) (rounds : ℕ) :
    Residue (recipLoop a1 rounds).toInt ∧
      ((recipLoop a1 rounds).toInt : ZMod 4591) = (a1.toInt : ZMod 4591) ^ (rounds + 1) := by
  induction rounds with
  | zero => exact ⟨h, (pow_one _).symm⟩
  | succ rounds ih =>
    obtain ⟨hprod, hle⟩ := toInt_mul_residue h ih.1
    rw [recipLoop, fqBigfreeze_toInt (by rw [hprod]; omega), hprod]
    refine ⟨residue_bmod _, ?_⟩
    rw [cast_bmod, Int.cast_mul, ih.2, ← pow_succ']

instance fact_prime_4591 : Fact (Nat.Prime 4591) := ⟨by norm_num⟩

/-- `Fq_recip` inverts modulo `q`. -/
theorem fqRecip_spec {a1 : Int16} (h : Residue a1.toInt) :
    Residue (fqRecip a1).toInt ∧
      ((fqRecip a1).toInt : ZMod 4591) = (a1.toInt : ZMod 4591)⁻¹ := by
  obtain ⟨hres, hpow⟩ := recipLoop_spec h 4588
  refine ⟨hres, hpow.trans ?_⟩
  by_cases hzero : (a1.toInt : ZMod 4591) = 0
  · rw [hzero, inv_zero, zero_pow (by norm_num)]
  · apply eq_inv_of_mul_eq_one_left
    rw [← pow_succ]
    exact ZMod.pow_card_sub_one_eq_one hzero

end SimpleGo.Sntrup
