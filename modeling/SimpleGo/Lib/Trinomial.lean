import Mathlib.Algebra.BigOperators.Intervals
import Mathlib.Algebra.BigOperators.NatAntidiagonal
import Mathlib.Algebra.Order.BigOperators.Group.Finset
import Mathlib.Data.ZMod.Basic
import Mathlib.RingTheory.AdjoinRoot

/-!
# Products modulo `x ^ n = x + 1`

A polynomial is the sequence of its coefficients, zero from some point on. `value x n f` is its
value at a point of a commutative ring, and `mulMod n f g` the sequence a program computes when
it multiplies two polynomials and folds the upper half back with `x ^ n = x + 1`. In every ring
with such a point it stands for the product (`value_mulMod`). The quotient of the polynomials
over `ZMod m` is a ring in which a sequence below `n` is determined modulo `m` by its value
(`modEq_of_value_eq`), so a statement about values there is one about coefficients.
-/

namespace SimpleGo.Lib

open Polynomial Finset

variable {A : Type*} [CommRing A]

/-! ### Arrays -/

section Arrays

variable {α : Type*} {n : ℕ}

/-- The array that a loop over its places fills. -/
def tabulate (n : ℕ) (f : ℕ → α) : Vector α n := Vector.ofFn fun i => f i

variable [Inhabited α]

/-- A place of an array; the default value outside. -/
def entry (v : Vector α n) (i : ℕ) : α := v[i]?.getD default

/-- An entry of a tabulated vector. -/
@[simp] theorem entry_tabulate (f : ℕ → α) (i : ℕ) :
    entry (tabulate n f) i = if i < n then f i else default := by
  rw [entry, tabulate, Vector.getElem?_ofFn]
  split_ifs <;> rfl

/-- Behind its end a vector reads as the default. -/
theorem entry_of_le (v : Vector α n) {i : ℕ} (hi : n ≤ i) : entry v i = default := by
  rw [entry, Vector.getElem?_eq_none hi, Option.getD_none]

/-- Within its length an entry is the element. -/
theorem entry_of_lt (v : Vector α n) {i : ℕ} (hi : i < n) : entry v i = v[i] := by
  rw [entry, Vector.getElem?_eq_getElem hi, Option.getD_some]

/-- An entry after an update. -/
theorem entry_setIfInBounds (v : Vector α n) (i j : ℕ) (a : α) :
    entry (v.setIfInBounds i a) j = if i = j ∧ i < n then a else entry v j := by
  rw [entry, Vector.getElem?_setIfInBounds]
  by_cases hij : i = j
  · by_cases hi : i < n
    · simp [hij, hij ▸ hi]
    · simp [hij, hij ▸ hi, entry_of_le v (not_lt.mp (hij ▸ hi))]
  · simp [hij, entry]

/-- Arrays that agree at every place are equal. -/
theorem ext_entry {u v : Vector α n} (h : ∀ i < n, entry u i = entry v i) : u = v := by
  apply Vector.ext
  intro i hi
  rw [← entry_of_lt u hi, ← entry_of_lt v hi]
  exact h i hi

end Arrays

/-! ### Values and products -/

/-- The value of the polynomial with the first `n` coefficients of `f`. -/
def value (x : A) (n : ℕ) (f : ℕ → ℤ) : A := ∑ i ∈ range n, (f i : A) * x ^ i

/-- The coefficients of a product. -/
def coeffProduct (f g : ℕ → ℤ) (k : ℕ) : ℤ := ∑ j ∈ range (k + 1), f j * g (k - j)

/-- The coefficients of a product modulo `x ^ n = x + 1`. -/
def mulMod (n : ℕ) (f g : ℕ → ℤ) (k : ℕ) : ℤ :=
  coeffProduct f g k + coeffProduct f g (k + n) + if k = 0 then 0 else coeffProduct f g (k + n - 1)

/-- No coefficient from `n` on. -/
def ZeroFrom (n : ℕ) (f : ℕ → ℤ) : Prop := ∀ i, n ≤ i → f i = 0

/-- The polynomial of a sequence. -/
noncomputable def toPolynomial (n : ℕ) (f : ℕ → ℤ) : ℤ[X] := ∑ i ∈ range n, C (f i) * X ^ i

/-- The coefficients are those of the function. -/
theorem coeff_toPolynomial {n : ℕ} {f : ℕ → ℤ} (hf : ZeroFrom n f) (i : ℕ) :
    (toPolynomial n f).coeff i = f i := by
  simp only [toPolynomial, finsetSum_coeff, coeff_C_mul_X_pow, sum_ite_eq, mem_range]
  split_ifs with hi
  · rfl
  · exact (hf i (not_lt.mp hi)).symm

/-- The value is that of the polynomial. -/
theorem value_eq_aeval (x : A) (n : ℕ) (f : ℕ → ℤ) : value x n f = aeval x (toPolynomial n f) := by
  simp only [value, toPolynomial, map_sum, map_mul, map_pow, aeval_X, eq_intCast, map_intCast]

/-- The degree lies below the number of coefficients. -/
theorem natDegree_toPolynomial_lt {n : ℕ} (hn : 0 < n) (f : ℕ → ℤ) :
    (toPolynomial n f).natDegree < n := by
  refine lt_of_le_of_lt (natDegree_sum_le_of_forall_le _ _ (n := n - 1) fun i hi => ?_) (by omega)
  exact (natDegree_C_mul_X_pow_le _ _).trans (by have := mem_range.mp hi; omega)

/-- A product of sequences below `n` lies below `2 * n - 1`. -/
theorem ZeroFrom.coeffProduct {n : ℕ} {f g : ℕ → ℤ} (hf : ZeroFrom n f) (hg : ZeroFrom n g) :
    ZeroFrom (2 * n - 1) (Lib.coeffProduct f g) := by
  intro k hk
  apply sum_eq_zero
  intro j hj
  by_cases hjn : n ≤ j
  · rw [hf j hjn, zero_mul]
  · have hj := mem_range.mp hj
    rw [hg (k - j) (by omega), mul_zero]

/-- The value of a product. -/
theorem value_coeffProduct {n : ℕ} (hn : 0 < n) {f g : ℕ → ℤ} (hf : ZeroFrom n f) (hg : ZeroFrom n g)
    (x : A) : value x (2 * n) (coeffProduct f g) = value x n f * value x n g := by
  have hcoeff : ∀ k, (toPolynomial n f * toPolynomial n g).coeff k = coeffProduct f g k := by
    intro k
    rw [coeff_mul, Nat.sum_antidiagonal_eq_sum_range_succ
      (f := fun i j => (toPolynomial n f).coeff i * (toPolynomial n g).coeff j)]
    apply sum_congr rfl
    intro j _
    rw [coeff_toPolynomial hf, coeff_toPolynomial hg]
  have hdeg : (toPolynomial n f * toPolynomial n g).natDegree < 2 * n := by
    have h1 := natDegree_toPolynomial_lt hn f
    have h2 := natDegree_toPolynomial_lt hn g
    exact lt_of_le_of_lt natDegree_mul_le (by omega)
  rw [value_eq_aeval x n f, value_eq_aeval x n g, ← map_mul, aeval_eq_sum_range' hdeg, value]
  apply sum_congr rfl
  intro k _
  rw [hcoeff, zsmul_eq_mul]

/-- A product modulo `x ^ n = x + 1`. -/
theorem value_mulMod {n : ℕ} (hn : 0 < n) {f g : ℕ → ℤ} (hf : ZeroFrom n f) (hg : ZeroFrom n g)
    {x : A} (hx : x ^ n = x + 1) : value x n (mulMod n f g) = value x n f * value x n g := by
  have hlast : coeffProduct f g (2 * n - 1) = 0 := hf.coeffProduct hg _ le_rfl
  -- the upper half, one place up
  have hshift : ∑ k ∈ range n, (coeffProduct f g (n + k) : A) * x ^ (k + 1) =
      ∑ k ∈ range n, ((if k = 0 then 0 else coeffProduct f g (k + n - 1) : ℤ) : A) * x ^ k := by
    obtain ⟨m, rfl⟩ : ∃ m, n = m + 1 := ⟨n - 1, by omega⟩
    rw [sum_range_succ, sum_range_succ', show m + 1 + m = 2 * (m + 1) - 1 by omega, hlast]
    simp only [Int.cast_zero, zero_mul, add_zero, if_true, Nat.add_eq_zero_iff, one_ne_zero,
      and_false, if_false]
    apply sum_congr rfl
    intro k _
    rw [show m + 1 + k = k + 1 + (m + 1) - 1 by omega]
  rw [← value_coeffProduct hn hf hg x, two_mul, value, value, sum_range_add, ← sub_eq_zero]
  have hupper : ∑ k ∈ range n, (coeffProduct f g (n + k) : A) * x ^ (n + k) =
      ∑ k ∈ range n, (coeffProduct f g (n + k) : A) * x ^ k +
        ∑ k ∈ range n, (coeffProduct f g (n + k) : A) * x ^ (k + 1) := by
    rw [← sum_add_distrib]
    apply sum_congr rfl
    intro k _
    rw [pow_add, hx]
    ring
  rw [hupper, hshift, ← sum_add_distrib, ← sum_add_distrib, ← sum_sub_distrib]
  apply sum_eq_zero
  intro k _
  rw [mulMod, Nat.add_comm k n]
  push_cast
  ring

/-- The weight of the first `n` coefficients. -/
def weight (n : ℕ) (f : ℕ → ℤ) : ℤ := ∑ j ∈ range n, |f j|

/-- A sum of `m` ones. -/
theorem sum_ones {m n : ℕ} (h : m ≤ n) : ∑ i ∈ range n, (if i < m then 1 else 0 : ℤ) = m := by
  have hterm : ∀ i ∈ range n, (if i < m then 1 else 0 : ℤ) = if i ∈ range m then 1 else 0 := by
    intro i _
    simp only [mem_range]
  have hinter : range n ∩ range m = range m := inter_eq_right.mpr (range_mono h)
  rw [sum_congr rfl hterm, sum_ite_mem, hinter, sum_const, card_range, nsmul_eq_mul, mul_one]

/-- The weight of as many ones. -/
theorem weight_ones {m n : ℕ} (h : m ≤ n) : weight n (fun i => if i < m then 1 else 0) = m := by
  rw [← sum_ones h, weight]
  apply sum_congr rfl
  intro i _
  split_ifs
  · exact abs_one
  · exact abs_zero

/-- A sum of products with small factors is at most the weight. -/
theorem abs_sum_mul_le {n : ℕ} (f h : ℕ → ℤ) (hh : ∀ j < n, |h j| ≤ 1) :
    |∑ j ∈ range n, f j * h j| ≤ weight n f := by
  refine (abs_sum_le_sum_abs _ _).trans (sum_le_sum fun j hj => ?_)
  rw [abs_mul]
  exact mul_le_of_le_one_right (abs_nonneg _) (hh j (mem_range.mp hj))

/-- A product with small coefficients: every coefficient of `f` is used at most twice in a
coefficient of the result. -/
theorem abs_mulMod_le {n : ℕ} {f g : ℕ → ℤ} (hf : ZeroFrom n f) (hg : ZeroFrom n g)
    (hsmall : ∀ i, |g i| ≤ 1) {k : ℕ} (hk : k < n) : |mulMod n f g k| ≤ 2 * weight n f := by
  have hlow : coeffProduct f g k + coeffProduct f g (k + n) =
      ∑ j ∈ range n, f j * (if j ≤ k then g (k - j) else g (k + n - j)) := by
    have hfst : coeffProduct f g k = ∑ j ∈ range n, f j * (if j ≤ k then g (k - j) else 0) := by
      rw [coeffProduct, ← sum_subset (range_mono hk)]
      · apply sum_congr rfl
        intro j hj
        rw [if_pos (by have := mem_range.mp hj; omega)]
      · intro j _ hj
        rw [if_neg (by simpa using hj), mul_zero]
    have hsnd : coeffProduct f g (k + n) =
        ∑ j ∈ range n, f j * (if j ≤ k then 0 else g (k + n - j)) := by
      rw [coeffProduct, ← sum_subset (range_mono (show n ≤ k + n + 1 by omega))]
      · apply sum_congr rfl
        intro j _
        split_ifs with hjk
        · rw [hg _ (by omega)]
        · rfl
      · intro j _ hj
        rw [hf j (by simpa using hj), zero_mul]
    rw [hfst, hsnd, ← sum_add_distrib]
    apply sum_congr rfl
    intro j _
    split_ifs <;> ring
  have hhigh : coeffProduct f g (k + n - 1) = ∑ j ∈ range n, f j * g (k + n - 1 - j) := by
    rw [coeffProduct, ← sum_subset (range_mono (show n ≤ k + n - 1 + 1 by omega))]
    intro j _ hj
    rw [hf j (by simpa using hj), zero_mul]
  have hone : |∑ j ∈ range n, f j * (if j ≤ k then g (k - j) else g (k + n - j))| ≤ weight n f :=
    abs_sum_mul_le f _ fun j _ => by split_ifs <;> exact hsmall _
  have htwo : |(if k = 0 then 0 else coeffProduct f g (k + n - 1) : ℤ)| ≤ weight n f := by
    split_ifs
    · rw [abs_zero]
      exact sum_nonneg fun j _ => abs_nonneg _
    · rw [hhigh]
      exact abs_sum_mul_le f _ fun j _ => hsmall _
  rw [mulMod, hlow]
  exact (abs_add_le _ _).trans (by linarith)

/-- The value at the inverse of a point is that of the reversed coefficients. -/
theorem value_reverse {x y : A} (hxy : x * y = 1) (n : ℕ) (f : ℕ → ℤ) :
    value y n (fun i => f (n - 1 - i)) = y ^ (n - 1) * value x n f := by
  rw [value, value, mul_sum, ← sum_range_reflect]
  apply sum_congr rfl
  intro i hi
  have hi := mem_range.mp hi
  have hpow : y ^ (n - 1) * x ^ i = y ^ (n - 1 - i) := by
    rw [show n - 1 = n - 1 - i + i by omega, pow_add, mul_assoc, ← mul_pow, mul_comm y x, hxy,
      one_pow, mul_one, show n - 1 - i + i - i = n - 1 - i by omega]
  rw [show n - 1 - (n - 1 - i) = i by omega, mul_left_comm, hpow]

/-- The value at the inverse is that of the reversed coefficients. -/
theorem value_eq_reverse {x y : A} (hxy : x * y = 1) (n : ℕ) (f : ℕ → ℤ) :
    value y n f = y ^ (n - 1) * value x n fun i => f (n - 1 - i) := by
  rw [← value_reverse hxy]
  apply sum_congr rfl
  intro i hi
  have hi := mem_range.mp hi
  simp only [show n - 1 - (n - 1 - i) = i by omega]

/-- The inverse of a point with `x ^ n = x + 1`. -/
theorem mul_pow_sub_one {x : A} {n : ℕ} (hn : 0 < n) (hx : x ^ n = x + 1) :
    x * (x ^ (n - 1) - 1) = 1 := by
  rw [mul_sub, ← pow_succ', Nat.sub_add_cancel hn, hx]
  ring

/-- The inverse of the point is a zero of the reversed trinomial. -/
theorem reversed_trinomial {x y : A} {n : ℕ} (hn : 0 < n) (hx : x ^ n = x + 1) (hxy : x * y = 1) :
    1 - y ^ (n - 1) - y ^ n = 0 := by
  obtain ⟨k, rfl⟩ : ∃ k, n = k + 1 := ⟨n - 1, by omega⟩
  have hone : (x * y) ^ (k + 1) = 1 := by rw [hxy, one_pow]
  rw [mul_pow, hx] at hone
  rw [Nat.add_sub_cancel]
  linear_combination -hone + y ^ k * hxy

/-- A common factor of the coefficients. -/
theorem value_mul_left (x : A) (n : ℕ) (c : ℤ) (f : ℕ → ℤ) :
    value x n (fun i => c * f i) = c * value x n f := by
  rw [value, value, mul_sum]
  apply sum_congr rfl
  intro i _
  push_cast
  ring

/-- Values are determined by residues. -/
theorem value_congr {m : ℕ} [Algebra (ZMod m) A] {x : A} {n : ℕ} {f g : ℕ → ℤ}
    (h : ∀ i < n, (f i : ZMod m) = g i) : value x n f = value x n g := by
  apply sum_congr rfl
  intro i hi
  rw [← map_intCast (algebraMap (ZMod m) A), h i (mem_range.mp hi), map_intCast]

/-- The polynomial modulo `m` with given coefficients. -/
noncomputable def residuePolynomial (m n : ℕ) (f : ℕ → ℤ) : (ZMod m)[X] :=
  (toPolynomial n f).map (Int.castRingHom (ZMod m))

/-- The coefficients modulo `m`. -/
theorem coeff_residuePolynomial {m n : ℕ} {f : ℕ → ℤ} (hf : ZeroFrom n f) (i : ℕ) :
    (residuePolynomial m n f).coeff i = f i := by
  rw [residuePolynomial, coeff_map, coeff_toPolynomial hf, eq_intCast]

/-- The value of a polynomial modulo `m` in terms of integers for its coefficients. -/
theorem aeval_eq_value {m n : ℕ} [Algebra (ZMod m) A] {p : (ZMod m)[X]} {f : ℕ → ℤ} (x : A)
    (hlow : ∀ i < n, p.coeff i = f i) (hhigh : ∀ i, n ≤ i → p.coeff i = 0) :
    aeval x p = value x n f := by
  have hsum : p = ∑ i ∈ range n, C ((f i : ZMod m)) * X ^ i := by
    ext i
    rw [finsetSum_coeff]
    simp only [coeff_C_mul_X_pow, sum_ite_eq, mem_range]
    split_ifs with hi
    · exact hlow i hi
    · exact hhigh i (not_lt.mp hi)
  rw [hsum, map_sum, value]
  apply sum_congr rfl
  intro i _
  rw [map_mul, aeval_C, map_pow, aeval_X, map_intCast]

/-! ### The quotient ring -/

/-- The polynomials over `ZMod m` modulo `X ^ n - X - 1`. -/
abbrev TrinomialRing (m n : ℕ) : Type := AdjoinRoot (X ^ n - X - 1 : (ZMod m)[X])

/-- The point of the quotient ring. -/
noncomputable def trinomialRoot (m n : ℕ) : TrinomialRing m n := AdjoinRoot.root _

/-- The root satisfies `x ^ n = x + 1`. -/
theorem trinomialRoot_pow (m n : ℕ) :
    trinomialRoot m n ^ n = trinomialRoot m n + 1 := by
  have h : aeval (trinomialRoot m n) (X ^ n - X - 1 : (ZMod m)[X]) = 0 := by
    rw [trinomialRoot, AdjoinRoot.aeval_eq, AdjoinRoot.mk_self]
  simp only [map_sub, map_pow, aeval_X, map_one] at h
  linear_combination h

variable {m n : ℕ}

/-- The trinomial is monic. -/
theorem monic_trinomial (hn : 1 < n) : (X ^ n - X - 1 : (ZMod m)[X]).Monic := by
  rw [show (X ^ n - X - 1 : (ZMod m)[X]) = X ^ n - (X + C 1) by rw [C_1]; ring]
  apply monic_X_pow_sub
  have hdeg : (X + C 1 : (ZMod m)[X]).degree ≤ 1 :=
    (degree_add_le _ _).trans (max_le degree_X_le (degree_C_le.trans (by decide)))
  exact lt_of_le_of_lt hdeg (by exact_mod_cast hn)

/-- The trinomial has degree `n`. -/
theorem natDegree_trinomial (hm : 1 < m) (hn : 1 < n) :
    (X ^ n - X - 1 : (ZMod m)[X]).natDegree = n := by
  have : Fact (1 < m) := ⟨hm⟩
  rw [show (X ^ n - X - 1 : (ZMod m)[X]) = X ^ n - (X + C 1) by rw [C_1]; ring,
    natDegree_sub_eq_left_of_natDegree_lt, natDegree_X_pow]
  rw [natDegree_X_add_C, natDegree_X_pow]
  exact hn

/-- In the quotient ring a value determines its coefficients modulo `m`. -/
theorem modEq_of_value_eq (hm : 1 < m) (hn : 1 < n) {f g : ℕ → ℤ}
    (h : value (trinomialRoot m n) n f = value (trinomialRoot m n) n g) {i : ℕ} (hi : i < n) :
    (f i : ZMod m) = g i := by
  have : Fact (1 < m) := ⟨hm⟩
  set d : (ZMod m)[X] := ∑ j ∈ range n, C ((f j : ZMod m) - g j) * X ^ j with hd
  have hmk : AdjoinRoot.mk (X ^ n - X - 1 : (ZMod m)[X]) d = 0 := by
    rw [hd, map_sum, ← sub_eq_zero.mpr h, value, value, ← sum_sub_distrib]
    apply sum_congr rfl
    intro j _
    rw [map_mul, map_pow, AdjoinRoot.mk_X, AdjoinRoot.mk_C, map_sub, map_intCast, map_intCast,
      trinomialRoot]
    ring
  have hzero : d = 0 := by
    by_contra hne
    refine (monic_trinomial hn).not_dvd_of_natDegree_lt hne ?_ (AdjoinRoot.mk_eq_zero.mp hmk)
    rw [natDegree_trinomial hm hn]
    refine lt_of_le_of_lt (natDegree_sum_le_of_forall_le _ _ (n := n - 1) fun j hj => ?_) (by omega)
    exact (natDegree_C_mul_X_pow_le _ _).trans (by have := mem_range.mp hj; omega)
  have hcoeff := congrArg (fun p => p.coeff i) hzero
  simp only [hd, finsetSum_coeff, coeff_C_mul_X_pow, sum_ite_eq, mem_range, hi, if_true,
    coeff_zero] at hcoeff
  exact sub_eq_zero.mp hcoeff

end SimpleGo.Lib
