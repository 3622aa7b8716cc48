import Mathlib.Algebra.Polynomial.AlgebraMap
import Mathlib.Algebra.Polynomial.Inductions
import Mathlib.Algebra.Polynomial.FieldDivision
import Mathlib.Tactic.LinearCombination

/-!
# Constant-time division steps on polynomials

A fixed number of division steps computes the inverse of a polynomial modulo another without
looking at degrees: `delta` counts the difference, and every step cancels the constant term of
`g` and divides by `X`. The polynomials are reversed, so the two inputs are values at the inverse
`y` of the point of interest. `v` and `r` follow the combination; up to the power of `y` that the
divisions took out, `f` and `g` are multiples of the value `G` of the second input. After
`2 * d - 1` steps `delta` is zero exactly when that value has an inverse: then `v` is one
(`Inv.inverse`), else `r` annihilates the value (`Inv.annihilates`).
-/

namespace SimpleGo.Lib.Divstep

open Polynomial

variable {K : Type*} [Field K]

/-- The registers of the computation. -/
structure State (K : Type*) [Field K] where
  delta : ℤ
  f : K[X]
  g : K[X]
  v : K[X]
  r : K[X]

/-- The factors that cancel the constant terms `f0` and `g0`. -/
structure Factors (K : Type*) [Field K] where
  onG : K → K → K
  onF : K → K → K
  onG_ne_zero : ∀ {f0 g0}, f0 ≠ 0 → onG f0 g0 ≠ 0
  cancel : ∀ {f0 g0}, f0 ≠ 0 → onG f0 g0 * g0 = onF f0 g0 * f0

/-- The conditional exchange, after `v` moved up one place. -/
noncomputable def State.exchange [DecidableEq K] (s : State K) : State K :=
  if 0 < s.delta ∧ s.g.coeff 0 ≠ 0 then ⟨1 - s.delta, s.g, s.f, s.r, X * s.v⟩
  else ⟨1 + s.delta, s.f, s.g, X * s.v, s.r⟩

/-- Cancel the constant term of `g` and divide by `X`. -/
noncomputable def State.eliminate (F : Factors K) (s : State K) : State K :=
  let a := C (F.onG (s.f.coeff 0) (s.g.coeff 0))
  let b := C (F.onF (s.f.coeff 0) (s.g.coeff 0))
  { s with g := divX (a * s.g - b * s.f), r := a * s.r - b * s.v }

/-- One division step. -/
noncomputable def step [DecidableEq K] (F : Factors K) (s : State K) : State K :=
  s.exchange.eliminate F

/-- `k` division steps. -/
noncomputable def run [DecidableEq K] (F : Factors K) (s : State K) : ℕ → State K
  | 0 => s
  | k + 1 => step F (run F s k)

section Invariant

variable {A : Type*} [CommRing A] [Algebra K A]

/-- What holds after `k` steps on inputs of degree `d` and less, with `r` starting at `c`. -/
structure Inv (d : ℕ) (c : K) (y G : A) (k : ℕ) (s : State K) : Prop where
  f_zero : s.f.coeff 0 ≠ 0
  delta_abs : |s.delta| ≤ k + 1
  f_high : ∀ i : ℕ, 2 * d - 1 - k + s.delta < 2 * (i : ℤ) → s.f.coeff i = 0
  g_high : ∀ i : ℕ, 2 * d - 1 - k - s.delta < 2 * (i : ℤ) → s.g.coeff i = 0
  v_high : ∀ i : ℕ, k - 1 + s.delta < 2 * (i : ℤ) → s.v.coeff i = 0
  r_high : ∀ i : ℕ, k + 1 - s.delta < 2 * (i : ℤ) → s.r.coeff i = 0
  f_value : c • (y ^ k * aeval y s.f) = y * aeval y s.v * G
  g_value : c • (y ^ k * aeval y s.g) = aeval y s.r * G
  det : s.f * s.r - s.g * (X * s.v) ≠ 0

/-- The invariant before the first step. -/
theorem Inv.init {d : ℕ} {c : K} {y : A} {f g : K[X]} (hf0 : f.coeff 0 ≠ 0) (hc : c ≠ 0)
    (hf : ∀ i, d < i → f.coeff i = 0) (hg : ∀ i, d ≤ i → g.coeff i = 0) (hy : aeval y f = 0) :
    Inv d c y (aeval y g) 0 ⟨1, f, g, 0, C c⟩ where
  f_zero := hf0
  delta_abs := by simp
  f_high i hi := hf i (by push_cast at hi; omega)
  g_high i hi := hg i (by push_cast at hi; omega)
  v_high i _ := coeff_zero i
  r_high i hi := coeff_C_of_ne_zero (by rintro rfl; simp at hi)
  f_value := by simp [hy]
  g_value := by simp [Algebra.smul_def]
  det := by
    have hne : f ≠ 0 := by
      rintro rfl
      exact hf0 (coeff_zero 0)
    simpa using And.intro hne hc

/-- What the elimination needs of the state after the exchange, at the same step count. -/
structure Mid (d : ℕ) (c : K) (y G : A) (k : ℕ) (s : State K) : Prop where
  f_zero : s.f.coeff 0 ≠ 0
  delta_abs : |s.delta| ≤ k + 2
  f_high : ∀ i : ℕ, 2 * d - 2 - k + s.delta < 2 * (i : ℤ) → s.f.coeff i = 0
  g_high : ∀ i : ℕ, 2 * d - k - s.delta < 2 * (i : ℤ) → s.g.coeff i = 0
  f_cancel : s.g.coeff 0 ≠ 0 → ∀ i : ℕ, 2 * d - k - s.delta < 2 * (i : ℤ) → s.f.coeff i = 0
  v_high : ∀ i : ℕ, k + s.delta < 2 * (i : ℤ) → s.v.coeff i = 0
  r_high : ∀ i : ℕ, k + 2 - s.delta < 2 * (i : ℤ) → s.r.coeff i = 0
  v_cancel : s.g.coeff 0 ≠ 0 → ∀ i : ℕ, k + 2 - s.delta < 2 * (i : ℤ) → s.v.coeff i = 0
  f_value : c • (y ^ k * aeval y s.f) = aeval y s.v * G
  g_value : c • (y ^ k * aeval y s.g) = aeval y s.r * G
  det : s.f * s.r - s.g * s.v ≠ 0

/-- A product with `X` ends one place higher. -/
theorem coeff_X_mul_high {p : K[X]} {b : ℤ} (hp : ∀ i : ℕ, b < 2 * (i : ℤ) → p.coeff i = 0)
    (i : ℕ) (hi : b + 2 < 2 * (i : ℤ)) (hb : -2 ≤ b) : (X * p).coeff i = 0 := by
  cases i with
  | zero => simp at hi; omega
  | succ i =>
    rw [coeff_X_mul]
    exact hp i (by push_cast at hi; omega)

/-- The exchange establishes what the elimination needs. -/
theorem Inv.exchange [DecidableEq K] {d : ℕ} {c : K} {y G : A} {k : ℕ} {s : State K}
    (h : Inv d c y G k s) : Mid d c y G k s.exchange := by
  have habs := abs_le.mp h.delta_abs
  have hv : ∀ i : ℕ, k + 1 + s.delta < 2 * (i : ℤ) → (X * s.v).coeff i = 0 := fun i hi =>
    coeff_X_mul_high h.v_high i (by omega) (by omega)
  have hvalue : aeval y (X * s.v) = y * aeval y s.v := by rw [map_mul, aeval_X]
  rw [State.exchange]
  split_ifs with hswap
  · obtain ⟨hdelta, hg0⟩ := hswap
    exact
      { f_zero := hg0
        delta_abs := abs_le.mpr (by constructor <;> simp only <;> omega)
        f_high := fun i hi => h.g_high i (by simp only at hi; omega)
        g_high := fun i hi => h.f_high i (by simp only at hi; omega)
        f_cancel := fun _ i hi => h.g_high i (by simp only at hi; omega)
        v_high := fun i hi => h.r_high i (by simp only at hi; omega)
        r_high := fun i hi => hv i (by simp only at hi; omega)
        v_cancel := fun _ i hi => h.r_high i (by simp only at hi; omega)
        f_value := h.g_value
        g_value := by rw [hvalue]; exact h.f_value
        det := by
          intro hzero
          apply h.det
          linear_combination -hzero }
  · have hdelta : s.g.coeff 0 ≠ 0 → s.delta ≤ 0 := fun hg0 =>
      not_lt.mp fun hlt => hswap ⟨hlt, hg0⟩
    exact
      { f_zero := h.f_zero
        delta_abs := abs_le.mpr (by constructor <;> simp only <;> omega)
        f_high := fun i hi => h.f_high i (by simp only at hi; omega)
        g_high := fun i hi => h.g_high i (by simp only at hi; omega)
        f_cancel := fun hg0 i hi => h.f_high i (by have := hdelta hg0; simp only at hi; omega)
        v_high := fun i hi => hv i (by simp only at hi; omega)
        r_high := fun i hi => h.r_high i (by simp only at hi; omega)
        v_cancel := fun hg0 i hi => hv i (by have := hdelta hg0; simp only at hi; omega)
        f_value := by rw [hvalue]; exact h.f_value
        g_value := h.g_value
        det := h.det }

/-- The elimination completes the step. -/
theorem Mid.eliminate {d : ℕ} {c : K} {y G : A} {k : ℕ} {s : State K} (F : Factors K)
    (h : Mid d c y G k s) : Inv d c y G (k + 1) (s.eliminate F) := by
  set a := F.onG (s.f.coeff 0) (s.g.coeff 0) with ha
  set b := F.onF (s.f.coeff 0) (s.g.coeff 0) with hb
  have hcancel : a * s.g.coeff 0 = b * s.f.coeff 0 := F.cancel h.f_zero
  have hbzero : s.g.coeff 0 = 0 → b = 0 := fun hg0 => by
    rw [hg0, mul_zero] at hcancel
    exact (mul_eq_zero.mp hcancel.symm).resolve_right h.f_zero
  -- the combination has no constant term
  have hdivX : X * divX (C a * s.g - C b * s.f) = C a * s.g - C b * s.f := by
    have hconst : (C a * s.g - C b * s.f).coeff 0 = 0 := by
      rw [coeff_sub, coeff_C_mul, coeff_C_mul, hcancel, sub_self]
    simpa [hconst] using X_mul_divX_add (C a * s.g - C b * s.f)
  have hmul : y * aeval y (divX (C a * s.g - C b * s.f)) =
      algebraMap K A a * aeval y s.g - algebraMap K A b * aeval y s.f := by
    have hmap := congrArg (aeval y) hdivX
    simpa only [map_mul, map_sub, aeval_X, aeval_C] using hmap
  have hf := h.f_value
  have hg := h.g_value
  rw [Algebra.smul_def] at hf hg
  have hcomb : ∀ {p q : K[X]} {i : ℕ}, p.coeff i = 0 → (s.g.coeff 0 ≠ 0 → q.coeff i = 0) →
      (C a * p - C b * q).coeff i = 0 := by
    intro p q i hp hq
    rw [coeff_sub, coeff_C_mul, coeff_C_mul, hp, mul_zero, zero_sub, neg_eq_zero]
    by_cases hg0 : s.g.coeff 0 = 0
    · rw [hbzero hg0, zero_mul]
    · rw [hq hg0, mul_zero]
  exact
    { f_zero := h.f_zero
      delta_abs := by
        have := h.delta_abs
        simp only [State.eliminate]
        push_cast
        omega
      f_high := fun i hi => h.f_high i (by
        simp only [State.eliminate] at hi
        push_cast at hi
        omega)
      g_high := fun i hi => by
        simp only [State.eliminate] at hi
        push_cast at hi
        simp only [State.eliminate, coeff_divX]
        exact hcomb (h.g_high (i + 1) (by push_cast; omega)) fun hg0 =>
          h.f_cancel hg0 (i + 1) (by push_cast; omega)
      v_high := fun i hi => h.v_high i (by
        simp only [State.eliminate] at hi
        push_cast at hi
        omega)
      r_high := fun i hi => by
        simp only [State.eliminate] at hi
        push_cast at hi
        exact hcomb (h.r_high i (by omega)) fun hg0 => h.v_cancel hg0 i (by omega)
      f_value := by
        simp only [State.eliminate, Algebra.smul_def]
        linear_combination y * hf
      g_value := by
        simp only [State.eliminate, Algebra.smul_def, map_sub, map_mul, aeval_C, ← ha, ← hb]
        linear_combination algebraMap K A c * y ^ k * hmul + algebraMap K A a * hg -
          algebraMap K A b * hf
      det := by
        simp only [State.eliminate, ← ha, ← hb]
        have hdet : s.f * (C a * s.r - C b * s.v) -
            divX (C a * s.g - C b * s.f) * (X * s.v) = C a * (s.f * s.r - s.g * s.v) := by
          linear_combination -s.v * hdivX
        rw [hdet]
        exact mul_ne_zero (C_ne_zero.mpr (F.onG_ne_zero h.f_zero)) h.det }

/-- What one step preserves. -/
theorem Inv.step [DecidableEq K] {d : ℕ} {c : K} {y G : A} {k : ℕ} {s : State K} (F : Factors K)
    (h : Inv d c y G k s) : Inv d c y G (k + 1) (step F s) :=
  h.exchange.eliminate F

/-- What a run preserves. -/
theorem Inv.run [DecidableEq K] {d : ℕ} {c : K} {y G : A} {s : State K} (F : Factors K)
    (h : Inv d c y G 0 s) (k : ℕ) : Inv d c y G k (run F s k) := by
  induction k with
  | zero => exact h
  | succ k ih => exact ih.step F

/-- No register of the inputs grows beyond the degree of the first. -/
theorem Inv.above {d : ℕ} {c : K} {y G : A} {k : ℕ} {s : State K} (h : Inv d c y G k s) {i : ℕ}
    (hi : d < i) : s.f.coeff i = 0 ∧ s.g.coeff i = 0 := by
  have habs := abs_le.mp h.delta_abs
  exact ⟨h.f_high i (by omega), h.g_high i (by omega)⟩

/-- After the last step `delta` is not negative. -/
theorem Inv.delta_nonneg {d : ℕ} (hd : 0 < d) {c : K} {y G : A} {s : State K}
    (h : Inv d c y G (2 * d - 1) s) : 0 ≤ s.delta := by
  by_contra hneg
  exact h.f_zero (h.f_high 0 (by push_cast [show 1 ≤ 2 * d by omega]; omega))

/-- With `delta = 0` after the last step `f` is constant and `v` inverts the second input. -/
theorem Inv.inverse {d : ℕ} (hd : 0 < d) {c : K} {y G : A} {s : State K}
    (h : Inv d c y G (2 * d - 1) s) (hdelta : s.delta = 0) :
    (∀ i, d ≤ i → s.v.coeff i = 0) ∧
      (c * s.f.coeff 0) • y ^ (2 * d - 1) = y * aeval y s.v * G := by
  have hk : ((2 * d - 1 : ℕ) : ℤ) = 2 * d - 1 := by omega
  constructor
  · intro i hi
    exact h.v_high i (by rw [hk]; omega)
  · have hconst : s.f = C (s.f.coeff 0) := by
      ext i
      cases i with
      | zero => rw [coeff_C_zero]
      | succ i =>
        rw [coeff_C_succ]
        exact h.f_high (i + 1) (by rw [hk]; push_cast; omega)
    have hf := h.f_value
    rw [hconst, aeval_C] at hf
    rw [← hf, mul_smul, mul_comm (y ^ _), ← Algebra.smul_def]

/-- With `delta ≠ 0` after the last step a nonzero multiplier of degree below `d` annihilates the
second input. -/
theorem Inv.annihilates {d : ℕ} (hd : 0 < d) {c : K} {y G : A} {s : State K}
    (h : Inv d c y G (2 * d - 1) s) (hdelta : s.delta ≠ 0) :
    s.r ≠ 0 ∧ (∀ i, d ≤ i → s.r.coeff i = 0) ∧ aeval y s.r * G = 0 := by
  have hk : ((2 * d - 1 : ℕ) : ℤ) = 2 * d - 1 := by omega
  have hpos : 0 < s.delta := lt_of_le_of_ne (h.delta_nonneg hd) (Ne.symm hdelta)
  have hg : s.g = 0 := by
    ext i
    rw [coeff_zero]
    exact h.g_high i (by rw [hk]; omega)
  refine ⟨?_, fun i hi => h.r_high i (by rw [hk]; omega), ?_⟩
  · intro hr
    apply h.det
    rw [hr, hg, mul_zero, zero_mul, sub_zero]
  · rw [← h.g_value, hg, map_zero, mul_zero, smul_zero]

end Invariant

end SimpleGo.Lib.Divstep
