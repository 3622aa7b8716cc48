import SimpleGo.Lib.Irreducible
import SimpleGo.Sntrup.Inverse

/-!
# Which polynomials the inversions invert

`x ^ 761 - x - 1` is irreducible modulo 4591: its quotient ring has an element of order 1523, and
the order of 4591 modulo 1523 is 761. So `crypto_core_inv` inverts every polynomial but zero, and
the key generation, which does not look at its flag, loses nothing. Modulo 3 the ring is no
field, and `crypto_core_inv3` tells by its flag what the key generation draws again.
-/

namespace SimpleGo.Sntrup

open Lib Polynomial

/-! ### The field of 4591 ^ 761 elements -/

/-- The coefficients of an element of order 1523. -/
def rootOfUnity : List ℕ :=
  [3307, 3338, 2542, 4349, 4441, 3770, 3518, 3100, 3598, 1327, 3251, 2037, 4375, 2346, 465, 4058,
  1923, 1031, 4115, 906, 3368, 595, 1330, 2259, 4015, 2471, 505, 818, 1109, 4517, 2377, 2333, 552,
  1885, 992, 3556, 3738, 3549, 1940, 3827, 817, 4011, 770, 3007, 1734, 1712, 1537, 3821, 2841, 1492,
  2581, 500, 1969, 1153, 1574, 3574, 1732, 2918, 3555, 3973, 3138, 4375, 742, 2743, 3863, 3802,
  1540, 1982, 2460, 2066, 2103, 767, 4313, 1682, 941, 2501, 3558, 1069, 4212, 4101, 1277, 2799,
  3558, 1661, 2576, 1651, 1570, 1879, 3285, 1856, 617, 1254, 2922, 745, 1781, 4425, 4211, 2763,
  4072, 3584, 3252, 1649, 3156, 3145, 1620, 2005, 3223, 1983, 2713, 1189, 1707, 2696, 1473, 2653,
  2405, 3154, 2865, 3409, 31, 2726, 938, 822, 3181, 3818, 1277, 2797, 2616, 2609, 1215, 3227, 2274,
  167, 3130, 3703, 1956, 4420, 2130, 4223, 901, 1145, 4410, 1953, 2533, 4005, 808, 2124, 4456, 2376,
  1843, 2018, 2056, 2881, 1851, 2693, 3145, 873, 1982, 3646, 413, 607, 2800, 937, 1702, 989, 320,
  3960, 3721, 1934, 946, 872, 3035, 4168, 2053, 2617, 1057, 1312, 734, 3046, 2880, 33, 4078, 11,
  1446, 4500, 1145, 3095, 3697, 2523, 3289, 2088, 899, 697, 1188, 1757, 4265, 853, 3601, 3415, 2487,
  1542, 239, 371, 1809, 2455, 1389, 2154, 3199, 1475, 4196, 1434, 1189, 3382, 3777, 3537, 816, 596,
  3517, 2614, 4242, 162, 3287, 1025, 3603, 3605, 4033, 1440, 535, 503, 3135, 1009, 1384, 1470, 1165,
  3252, 1952, 1958, 419, 1506, 2994, 2011, 4021, 2862, 1599, 3311, 3599, 4188, 1534, 1236, 1609,
  4461, 3377, 2542, 808, 3623, 4580, 4132, 3921, 3912, 4514, 843, 1661, 3712, 3421, 1916, 1329,
  2456, 629, 2241, 280, 3524, 1449, 133, 2309, 1139, 2073, 3380, 1513, 384, 2263, 1122, 2745, 1154,
  1789, 713, 735, 773, 997, 1060, 3808, 691, 4278, 473, 3906, 1373, 3859, 2763, 3196, 2005, 2364,
  459, 2549, 3059, 710, 950, 2176, 2698, 2910, 1952, 70, 1531, 3678, 1838, 318, 1743, 3756, 1564,
  238, 1284, 3421, 2821, 3677, 2438, 3594, 3625, 1217, 3506, 2661, 1584, 206, 3138, 1215, 2497,
  1508, 1089, 1567, 1029, 1017, 4118, 3093, 1273, 3522, 1276, 546, 1948, 61, 767, 1957, 1886, 1203,
  1283, 2487, 4578, 1157, 3469, 2558, 2199, 358, 1916, 3114, 4512, 3060, 4433, 4149, 3904, 4545,
  3298, 1088, 3952, 3856, 264, 2485, 1781, 3007, 3080, 2728, 1568, 2243, 4584, 4341, 1911, 3176,
  1312, 3131, 1656, 1767, 3376, 2789, 4292, 2243, 4090, 1680, 720, 4430, 4259, 3988, 3389, 1752,
  2872, 3286, 571, 3684, 3566, 2888, 2195, 1481, 285, 1091, 2867, 1653, 297, 2293, 4570, 1108, 943,
  1129, 3416, 2344, 2840, 532, 4178, 4138, 2392, 2932, 229, 1381, 394, 4004, 1089, 4011, 691, 3898,
  2426, 2324, 664, 2220, 2607, 4335, 144, 1793, 2860, 1468, 3988, 1665, 1945, 1152, 3719, 2168, 181,
  215, 274, 4539, 4277, 3573, 3881, 2502, 4016, 3733, 3413, 996, 4486, 814, 1865, 4148, 3353, 4051,
  1948, 1309, 1206, 3945, 3880, 1950, 91, 2175, 1895, 1554, 161, 1844, 2916, 1574, 4162, 2069, 1680,
  552, 1503, 2044, 3267, 3777, 1859, 1331, 922, 2666, 3534, 1551, 349, 892, 4073, 2776, 3364, 1109,
  3894, 4369, 4433, 2465, 3337, 2543, 3432, 4569, 1568, 3085, 1409, 1677, 608, 4301, 493, 1424, 300,
  2485, 3444, 2501, 4404, 3222, 1862, 280, 1925, 1918, 2963, 3324, 4325, 664, 4321, 4290, 4073,
  1827, 886, 3016, 1561, 3811, 1833, 1211, 1996, 179, 1290, 3910, 924, 1738, 519, 2668, 2489, 1813,
  1873, 4324, 2465, 2433, 2804, 2487, 1430, 3758, 1258, 3613, 3046, 2005, 1825, 857, 4570, 746,
  1095, 805, 2602, 2067, 239, 1649, 1477, 2044, 2398, 1523, 1806, 1666, 745, 2180, 3023, 1205, 2051,
  3527, 2346, 3443, 942, 1434, 107, 1275, 1030, 763, 248, 1399, 979, 4043, 2491, 1611, 3875, 3143,
  2802, 1470, 484, 1652, 4379, 530, 1853, 1902, 4581, 2373, 3214, 0, 984, 3747, 3922, 3906, 4151,
  3423, 2616, 3046, 1646, 3547, 967, 1356, 1609, 1688, 3598, 697, 44, 4257, 556, 4189, 4330, 1749,
  3967, 2093, 3168, 2611, 272, 3632, 1183, 776, 919, 4132, 4461, 1582, 3501, 4564, 4347, 1124, 427,
  4560, 3313, 4552, 149, 1747, 4307, 91, 1328, 845, 4099, 1120, 2410, 225, 120, 1547, 610, 321,
  3750, 3025, 4493, 1255, 4475, 4428, 1945, 4243, 3964, 2289, 2187, 2045, 2333, 2019, 4482, 2087,
  3467, 861, 1479, 2920, 144, 2177, 226, 75, 65, 1855, 362, 4409, 3822, 44, 3379, 913, 1830, 630,
  1818, 2643, 126, 1625, 632, 3582, 1614, 1420, 120, 1677, 1011, 3783, 3529, 2691, 1048, 1746, 2771,
  2157, 844, 524, 2369, 1219, 608, 2322, 573, 675, 3368, 2050, 3209, 4192, 2726, 801, 4269, 3325,
  1748, 2118, 3829, 2915, 606, 1204, 2335, 3193, 2790, 3740, 96, 3194, 1102, 1636, 2685, 745, 2589,
  3852, 243, 167, 1634, 1435, 2972, 1136, 3570, 3375]

/-- The bits of 1523, lowest first. -/
def orderBits : List Bool :=
  [true, true, false, false, true, true, true, true, true, false, true]

/-- The coefficients are residues, the powers of the element below its order add up to zero, and
4591 has an order that divides 761. -/
theorem rootOfUnity_check :
    (rootOfUnity.length = p ∧ ∀ c ∈ rootOfUnity, c < 4591) ∧
      (powerSum p 4591 (2 ^ 40) rootOfUnity orderBits).2 = List.replicate p 0 ∧
      4591 ^ p % 1523 = 1 % 1523 := by
  decide +kernel

instance fact_prime_1523 : Fact (Nat.Prime 1523) := ⟨by norm_num⟩

/-- The order of 4591 modulo 1523 is `p`. -/
theorem orderOf_4591 : orderOf ((4591 : ℕ) : ZMod 1523) = p := by
  have : Fact (Nat.Prime p) := ⟨by norm_num [p]⟩
  apply orderOf_eq_prime
  · rw [← Nat.cast_pow, ← Nat.cast_one (R := ZMod 1523), ZMod.natCast_eq_natCast_iff]
    exact rootOfUnity_check.2.2
  · decide

/-- The modulus is irreducible modulo `q`. -/
theorem irreducible_trinomial : Irreducible (X ^ p - X - 1 : (ZMod 4591)[X]) :=
  irreducible_of_powerSum (by decide) rootOfUnity_check.1 (by decide) (by decide)
    orderOf_4591 (by norm_num) rootOfUnity_check.2.1

/-! ### Products and inverses -/

/-- The polynomial 1 modulo `q`. -/
def rqOne : Vector Int16 p := tabulate p fun i => if i = 0 then 1 else 0

/-- The polynomial 1 modulo 3. -/
def smallOne : Vector Int8 p := tabulate p fun i => if i = 0 then 1 else 0

/-- The coefficients of the one of `R/q`. -/
theorem fqInts_rqOne (i : ℕ) : fqInts rqOne i = if i = 0 then 1 else 0 := by
  by_cases hi : i < p
  · rw [fqInts, rqOne, entry_tabulate, if_pos hi]
    split_ifs <;> rfl
  · have hp : 0 < p := by decide
    rw [below_fqInts rqOne i (not_lt.mp hi), if_neg (by omega)]

/-- The coefficients of the small one. -/
theorem smallInts_smallOne (i : ℕ) : smallInts smallOne i = if i = 0 then 1 else 0 := by
  by_cases hi : i < p
  · rw [smallInts, smallOne, entry_tabulate, if_pos hi]
    split_ifs <;> rfl
  · have hp : 0 < p := by decide
    rw [below_smallInts smallOne i (not_lt.mp hi), if_neg (by omega)]

/-- The value of the polynomial 1. -/
theorem value_one {A : Type*} [CommRing A] (x : A) {n : ℕ} (hn : 0 < n) {f : ℕ → ℤ}
    (hf : ∀ i, f i = if i = 0 then 1 else 0) : value x n f = 1 := by
  rw [value, Finset.sum_eq_single 0]
  · rw [hf, if_pos rfl, Int.cast_one, pow_zero, one_mul]
  · intro i _ hi
    rw [hf, if_neg hi, Int.cast_zero, zero_mul]
  · exact fun h => absurd (Finset.mem_range.mpr hn) h

/-- The one is small. -/
theorem small_smallOne (i : ℕ) : |smallInts smallOne i| ≤ 1 := by
  rw [smallInts_smallOne]
  split_ifs <;> decide

/-- The one has residues only. -/
theorem residue_rqOne (i : ℕ) : Residue (fqInts rqOne i) := by
  rw [fqInts_rqOne]
  split_ifs
  · exact residue_one
  · exact residue_zero

/-- `crypto_core_mult3` is a commutative product with a unit, and `crypto_core_mult` and
`crypto_core_scale3` are products with elements of one ring. -/
theorem cryptoCoreMult_laws {h : Vector Int16 p} {e f g : Vector Int8 p}
    (hh : ∀ i, Residue (fqInts h i)) (he : ∀ i, |smallInts e i| ≤ 1)
    (hf : ∀ i, |smallInts f i| ≤ 1) (hg : ∀ i, |smallInts g i| ≤ 1) :
    (r3Mult f g = r3Mult g f ∧ r3Mult (r3Mult e f) g = r3Mult e (r3Mult f g) ∧
      r3Mult f smallOne = f) ∧
    rqMultSmall (rqMultSmall h f) g = rqMultSmall (rqMultSmall h g) f ∧
      rqMultSmall h smallOne = h ∧ rqMult3 (rqMultSmall h f) = rqMultSmall (rqMult3 h) f := by
  have hpos : 0 < p := by decide
  have hmax : p ≤ 3000 := by decide
  have hlt : 1 < p := by decide
  have hef := small_r3Mult hmax he hf
  have hfg := small_r3Mult hmax hf hg
  have hhf := residue_rqMultSmall hmax hh hf
  have hhg := residue_rqMultSmall hmax hh hg
  refine ⟨⟨?_, ?_, ?_⟩, ?_, ?_, ?_⟩
  · apply ext_value_small hlt hfg (small_r3Mult hmax hg hf)
    rw [value_r3Mult hpos hmax hf hg, value_r3Mult hpos hmax hg hf, mul_comm]
  · apply ext_value_small hlt (small_r3Mult hmax hef hg) (small_r3Mult hmax he hfg)
    rw [value_r3Mult hpos hmax hef hg, value_r3Mult hpos hmax he hf,
      value_r3Mult hpos hmax he hfg, value_r3Mult hpos hmax hf hg, mul_assoc]
  · apply ext_value_small hlt (small_r3Mult hmax hf small_smallOne) hf
    rw [value_r3Mult hpos hmax hf small_smallOne, value_one _ hpos smallInts_smallOne, mul_one]
  · apply ext_value_fq hlt (residue_rqMultSmall hmax hhf hg) (residue_rqMultSmall hmax hhg hf)
    rw [value_rqMultSmall hpos hmax hhf hg, value_rqMultSmall hpos hmax hh hf,
      value_rqMultSmall hpos hmax hhg hf, value_rqMultSmall hpos hmax hh hg]
    ring
  · apply ext_value_fq hlt (residue_rqMultSmall hmax hh small_smallOne) hh
    rw [value_rqMultSmall hpos hmax hh small_smallOne, value_one _ hpos smallInts_smallOne, mul_one]
  · apply ext_value_fq hlt (residue_rqMult3 hhf) (residue_rqMultSmall hmax (residue_rqMult3 hh) hf)
    rw [value_rqMult3 hhf, value_rqMultSmall hpos hmax hh hf,
      value_rqMultSmall hpos hmax (residue_rqMult3 hh) hf, value_rqMult3 hh, mul_assoc]

/-- The units of the two products. -/
theorem cryptoCoreMult_one : r3Mult smallOne smallOne = smallOne ∧
    rqMultSmall rqOne smallOne = rqOne := by
  have h := cryptoCoreMult_laws residue_rqOne small_smallOne small_smallOne small_smallOne
  exact ⟨h.1.2.2, h.2.2.1⟩

/-- The flag of `crypto_core_inv` tells zero from all other polynomials. -/
theorem cryptoCoreInv_flag (f : Vector Int8 p) :
    (cryptoCoreInv f).2 = 0 ↔ ∃ i < p, smallInts f i ≠ 0 := by
  rw [(cryptoCoreInv_spec (by decide) (by decide) f).2.2.1,
    isUnit_value_iff irreducible_trinomial (by decide)]
  have hcast : ∀ i, (smallInts f i : ZMod 4591) = 0 ↔ smallInts f i = 0 := by
    intro i
    have h1 := (entry f i).toInt_lt
    have h2 := (entry f i).le_toInt
    have habs : |smallInts f i| ≤ 128 := abs_le.mpr ⟨h2, h1.le⟩
    exact cast_eq_zero_iff (by push_cast; omega)
  simp only [Ne, hcast]

/-- Modulo `q` every small polynomial but zero is inverted, up to the factor 3. -/
theorem cryptoCoreInv_inverts {f : Vector Int8 p} (hf : ∀ i, |smallInts f i| ≤ 1) :
    ((cryptoCoreInv f).2 = 0 ∨ (cryptoCoreInv f).2 = 255) ∧
      ((cryptoCoreInv f).2 = 0 ↔ ∃ i < p, entry f i ≠ 0) ∧
      ((∃ i < p, entry f i ≠ 0) → rqMult3 (rqMultSmall (rqRecip3 f) f) = rqOne) := by
  obtain ⟨hres, hflag, -, hinv⟩ := cryptoCoreInv_spec (by decide) (by decide) f
  have hiff : (cryptoCoreInv f).2 = 0 ↔ ∃ i < p, entry f i ≠ 0 := by
    rw [cryptoCoreInv_flag]
    simp only [smallInts, Ne, ← Int8.toInt_inj, show (0 : Int8).toInt = 0 from rfl]
  have hprod := residue_rqMultSmall (by decide) hres hf
  refine ⟨hflag, hiff, fun hne => ?_⟩
  apply ext_value_fq (by decide) (residue_rqMult3 hprod) residue_rqOne
  rw [value_rqMult3 hprod, value_rqMultSmall (by decide) (by decide) hres hf,
    value_one _ (by decide) fqInts_rqOne, ← hinv (hiff.mpr hne)]
  ring

/-- The polynomial 1 is one of them. -/
theorem cryptoCoreInv_smallOne : (cryptoCoreInv smallOne).2 = 0 ∧
    rqMult3 (rqMultSmall (rqRecip3 smallOne) smallOne) = rqOne := by
  have hne : ∃ i < p, entry smallOne i ≠ 0 := ⟨0, by decide, by
    rw [smallOne, entry_tabulate, if_pos (by decide), if_pos rfl]
    decide⟩
  have h := cryptoCoreInv_inverts small_smallOne
  exact ⟨h.2.1.mpr hne, h.2.2 hne⟩

/-- Modulo 3 the flag tells whether there is an inverse, and what is returned is the only one. -/
theorem cryptoCoreInv3_inverts {g : Vector Int8 p} (hg : ∀ i, |smallInts g i| ≤ 1) :
    ((cryptoCoreInv3 g).2 = 0 ∨ (cryptoCoreInv3 g).2 = -1) ∧
      ((cryptoCoreInv3 g).2 = 0 ↔
        ∃ v : Vector Int8 p, (∀ i, |smallInts v i| ≤ 1) ∧ r3Mult v g = smallOne) ∧
      ((cryptoCoreInv3 g).2 = 0 → ∀ v : Vector Int8 p, (∀ i, |smallInts v i| ≤ 1) →
        (r3Mult v g = smallOne ↔ v = (cryptoCoreInv3 g).1)) := by
  obtain ⟨hsmall, hflag, hunit, hinv⟩ := cryptoCoreInv3_spec (by decide) (by decide) hg
  set x := trinomialRoot 3 p
  have hone : ∀ v : Vector Int8 p, (∀ i, |smallInts v i| ≤ 1) →
      (r3Mult v g = smallOne ↔ value x p (smallInts v) * value x p (smallInts g) = 1) := by
    intro v hv
    have hprod := small_r3Mult (by decide) hv hg
    rw [← value_r3Mult (by decide) (by decide) hv hg]
    constructor
    · intro h
      rw [h]
      exact value_one _ (by decide) smallInts_smallOne
    · intro h
      apply ext_value_small (by decide) hprod small_smallOne
      rw [h, value_one _ (by decide) smallInts_smallOne]
  refine ⟨hflag, ⟨fun hzero => ⟨_, hsmall, (hone _ hsmall).mpr (hinv hzero)⟩, ?_⟩, ?_⟩
  · rintro ⟨v, hv, hv1⟩
    exact hunit.mpr (IsUnit.of_mul_eq_one_right _ ((hone v hv).mp hv1))
  · intro hzero v hv
    rw [hone v hv]
    constructor
    · intro h
      apply ext_value_small (by decide) hv hsmall
      calc value x p (smallInts v)
          = value x p (smallInts v) * (value x p (smallInts (cryptoCoreInv3 g).1) *
              value x p (smallInts g)) := by rw [hinv hzero, mul_one]
        _ = value x p (smallInts v) * value x p (smallInts g) *
              value x p (smallInts (cryptoCoreInv3 g).1) := by ring
        _ = value x p (smallInts (cryptoCoreInv3 g).1) := by rw [h, one_mul]
    · intro h
      rw [h]
      exact hinv hzero

/-- The polynomial 1 has itself for an inverse. -/
theorem cryptoCoreInv3_smallOne : (cryptoCoreInv3 smallOne).1 = smallOne := by
  have hone : r3Mult smallOne smallOne = smallOne := by
    apply ext_value_small (by decide) (small_r3Mult (by decide) small_smallOne small_smallOne)
      small_smallOne
    rw [value_r3Mult (by decide) (by decide) small_smallOne small_smallOne,
      value_one _ (by decide) smallInts_smallOne, one_mul]
  obtain ⟨-, hiff, hunique⟩ := cryptoCoreInv3_inverts small_smallOne
  exact ((hunique (hiff.mpr ⟨smallOne, small_smallOne, hone⟩) smallOne small_smallOne).mp hone).symm

end SimpleGo.Sntrup
