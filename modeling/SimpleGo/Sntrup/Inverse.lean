import Mathlib
import SimpleGo.Lib.Divstep
import SimpleGo.Sntrup.Multiply

/-!
# Inversion in the two rings

`crypto_core_inv` inverts modulo `q` and `crypto_core_inv3` modulo 3, both modulo
`x ^ p - x - 1`, by `2 * p - 1` division steps on arrays of `p + 1` words. The arrays hold the
low coefficients of the polynomials of the abstract computation (`Simulates`); what a shift
drops at the top is only lost where the computation fails anyway. The flag is zero exactly for
the inputs that have an inverse, and then the output is one.
-/

namespace SimpleGo.Sntrup

open Lib Polynomial

/-! ### The loops -/

/-- The arrays of an inversion. -/
structure Registers (α : Type) (n : ℕ) where
  delta : Int32
  f : Vector α (n + 1)
  g : Vector α (n + 1)
  v : Vector α (n + 1)
  r : Vector α (n + 1)

section Loops

variable {α : Type} [Inhabited α] [OfNat α 0] {n : ℕ}

/-- `for (i = p; i > 0; --i) v[i] = v[i - 1]; v[0] = 0`. -/
def shiftUp (v : Vector α (n + 1)) : Vector α (n + 1) :=
  tabulate (n + 1) fun i => if i = 0 then 0 else entry v (i - 1)

/-- `for (i = 0; i < p; ++i) g[i] = g[i + 1]; g[p] = 0`. -/
def shiftDown (g : Vector α (n + 1)) : Vector α (n + 1) :=
  tabulate (n + 1) fun i => if i < n then entry g (i + 1) else 0

/-- The first half of a step: `v` moves up, and under the mask `f` and `g`, `v` and `r` change
places and `delta` its sign. -/
def exchange (swapWord : Int32 → α → α → α × α) (widen : α → Int16) (s : Registers α n) :
    Registers α n :=
  let v := shiftUp s.v
  let swap := int16NegativeMask (-s.delta).toInt16 &&& int16NonzeroMask (widen (entry s.g 0))
  let delta := s.delta ^^^ (swap &&& (s.delta ^^^ -s.delta))
  { delta := delta + 1
    f := tabulate (n + 1) fun i => (swapWord swap (entry s.f i) (entry s.g i)).1
    g := tabulate (n + 1) fun i => (swapWord swap (entry s.f i) (entry s.g i)).2
    v := tabulate (n + 1) fun i => (swapWord swap (entry v i) (entry s.r i)).1
    r := tabulate (n + 1) fun i => (swapWord swap (entry v i) (entry s.r i)).2 }

/-- The second half: `g` and `r` combined with `f` and `v`, and `g` moved down. -/
def eliminate (combine : α → α → α) (s : Registers α n) : Registers α n :=
  { s with
    g := shiftDown (tabulate (n + 1) fun i => combine (entry s.g i) (entry s.f i))
    r := tabulate (n + 1) fun i => combine (entry s.r i) (entry s.v i) }

/-- The body of the loop of `crypto_core_inv`. -/
def divstepFq (s : Registers Int16 n) : Registers Int16 n :=
  let s := exchange maskSwapFq id s
  let f0 := (entry s.f 0).toInt32
  let g0 := (entry s.g 0).toInt32
  eliminate (fun gi fi => fqBigfreeze (f0 * gi.toInt32 - g0 * fi.toInt32)) s

/-- The body of the loop of `crypto_core_inv3`: the sign is taken before the exchange. -/
def divstep3 (s : Registers Int8 n) : Registers Int8 n :=
  let sign := -(entry s.g 0).toInt32 * (entry s.f 0).toInt32
  let s := exchange maskSwapSmall Int8.toInt16 s
  eliminate (fun gi fi => f3Freeze (gi.toInt32 + sign * fi.toInt32).toInt16) s

/-- `for (loop = 0; loop < rounds; ++loop)`. -/
def divsteps (step : Registers α n → Registers α n) (s : Registers α n) :
    (rounds : ℕ) → Registers α n
  | 0 => s
  | rounds + 1 => step (divsteps step s rounds)

/-- The arrays before the loop: `f` is the reversed modulus. -/
def start [OfNat α 1] [Neg α] (r0 : α) (g : ℕ → α) : Registers α n where
  delta := 1
  f := tabulate (n + 1) fun i => if n - 1 ≤ i then -1 else if i = 0 then 1 else 0
  g := tabulate (n + 1) fun i => if i < n then g (n - 1 - i) else 0
  v := tabulate (n + 1) fun _ => 0
  r := tabulate (n + 1) fun i => if i = 0 then r0 else 0

/-- `crypto_core_inv`: the bytes of the result and the byte of the flag after them. -/
def cryptoCoreInv (inbytes : Vector Int8 n) : Vector UInt8 (2 * n) × UInt8 :=
  let s : Registers Int16 n :=
    divsteps divstepFq (start (fqRecip 3) fun i => (entry inbytes i).toInt16) (2 * n - 1)
  let scale := fqRecip (entry s.f 0)
  let out := tabulate n fun i => fqBigfreeze (scale.toInt32 * (entry s.v (n - 1 - i)).toInt32)
  (encodePxint16 out, (int16NonzeroMask s.delta.toInt16).toUInt32.toUInt8)

/-- `crypto_core_inv3`: the result and the flag after it. -/
def cryptoCoreInv3 (inbytes : Vector Int8 n) : Vector Int8 n × Int8 :=
  let s : Registers Int8 n :=
    divsteps divstep3 (start 1 fun i => smallBits (entry inbytes i)) (2 * n - 1)
  let sign := (entry s.f 0).toInt32
  (tabulate n fun i => (sign * (entry s.v (n - 1 - i)).toInt32).toInt8,
    (int16NonzeroMask s.delta.toInt16).toInt8)

/-- `Rq_recip3`: the flag is not looked at. -/
def rqRecip3 (inbytes : Vector Int8 n) : Vector Int16 n := decodePxint16 (cryptoCoreInv inbytes).1

end Loops

/-! ### The arrays hold the low coefficients -/

section Simulation

variable {α : Type} [Inhabited α] {n m : ℕ} [Fact m.Prime]

/-- The arrays hold residues of the coefficients up to `n`. -/
structure Simulates (m : ℕ) [Fact m.Prime] (val : α → ℤ) (c : Registers α n)
    (s : Divstep.State (ZMod m)) : Prop where
  delta : c.delta.toInt = s.delta
  f : ∀ i ≤ n, (val (entry c.f i) : ZMod m) = s.f.coeff i
  g : ∀ i ≤ n, (val (entry c.g i) : ZMod m) = s.g.coeff i
  v : ∀ i ≤ n, (val (entry c.v i) : ZMod m) = s.v.coeff i
  r : ∀ i ≤ n, (val (entry c.r i) : ZMod m) = s.r.coeff i
  f_small : ∀ i, 2 * |val (entry c.f i)| < m
  g_small : ∀ i, 2 * |val (entry c.g i)| < m
  v_small : ∀ i, 2 * |val (entry c.v i)| < m
  r_small : ∀ i, 2 * |val (entry c.r i)| < m

/-- A run of the loop, as long as the counter fits `int16`. -/
theorem Simulates.divsteps {val : α → ℤ} {step : Registers α n → Registers α n}
    {F : Divstep.Factors (ZMod m)} {A : Type*} [CommRing A] [Algebra (ZMod m) A] {r0 : ZMod m}
    {y G : A} {c : Registers α n} {s : Divstep.State (ZMod m)}
    (hstep : ∀ {c s}, Simulates m val c s → |s.delta| < 32768 →
      (∀ i, n < i → s.f.coeff i = 0 ∧ s.g.coeff i = 0) →
      Simulates m val (step c) (Divstep.step F s))
    (h : Simulates m val c s) (hinv : Divstep.Inv n r0 y G 0 s) (rounds : ℕ)
    (hrounds : rounds < 32768) :
    Simulates m val (divsteps step c rounds) (Divstep.run F s rounds) := by
  induction rounds with
  | zero => exact h
  | succ rounds ih =>
    have hnow := hinv.run F rounds
    exact hstep (ih (by omega)) (lt_of_le_of_lt hnow.delta_abs (by omega)) fun i hi =>
      hnow.above hi

variable [OfNat α 0]

/-- The words of an inversion and the integers they stand for. -/
structure Words (val : α → ℤ) (swapWord : Int32 → α → α → α × α) (widen : α → Int16) : Prop where
  val_default : val default = 0
  val_zero : val 0 = 0
  swap : ∀ b x y, swapWord (mask b) x y = if b then (y, x) else (x, y)
  widen : ∀ x, widen x = 0 ↔ val x = 0

/-- Behind its end a vector reads as zero. -/
theorem Words.val_entry {val : α → ℤ} {swapWord : Int32 → α → α → α × α} {widen : α → Int16}
    (W : Words val swapWord widen) (v : Vector α (n + 1)) {i : ℕ} (hi : n + 1 ≤ i) :
    val (entry v i) = 0 := by
  rw [entry_of_le v hi, W.val_default]

/-- The integers of a vector end with it. -/
theorem Words.below {val : α → ℤ} {swapWord : Int32 → α → α → α × α} {widen : α → Int16}
    (W : Words val swapWord widen) (v : Vector α (n + 1)) :
    ZeroFrom (n + 1) fun i => val (entry v i) := fun _ hi => W.val_entry v hi

/-- A small number that is zero modulo `m` is zero. -/
theorem cast_eq_zero_iff {x : ℤ} (h : 2 * |x| < m) : (x : ZMod m) = 0 ↔ x = 0 := by
  constructor
  · intro hzero
    have hx := eq_bmod_of_cast (x := 0) h (by rw [hzero, Int.cast_zero])
    rwa [Int.zero_bmod] at hx
  · rintro rfl
    exact Int.cast_zero

/-- Masks are joined as their flags are. -/
theorem mask_and (a b : Bool) : mask a &&& mask b = mask (a && b) := by
  cases a <;> cases b <;> rfl

/-- The sign of `delta` as a mask. -/
theorem negativeMask_neg {delta : Int32} (h : |delta.toInt| < 32768) :
    int16NegativeMask (-delta).toInt16 = mask (decide (0 < delta.toInt)) := by
  have h := abs_lt.mp h
  have hneg : (-delta).toInt16.toInt = -delta.toInt := by
    rw [Int32.toInt_toInt16, Int32.toInt_neg, bmod_word (by omega) (by omega),
      bmod_halfword (by omega) (by omega)]
  rw [int16NegativeMask_eq, hneg, mask]
  simp only [decide_eq_true_eq, Int.neg_neg_iff_pos]

/-- The mask of an entry that is not zero. -/
theorem nonzeroMask_eq {val : α → ℤ} {swapWord : Int32 → α → α → α × α} {widen : α → Int16}
    (W : Words val swapWord widen) (x : α) :
    int16NonzeroMask (widen x) = mask (decide (val x ≠ 0)) := by
  rw [int16NonzeroMask_eq, mask]
  simp only [W.widen, decide_eq_true_eq, ne_eq, ite_not]

/-- `delta` under the mask, and one more. -/
theorem toInt_delta (b : Bool) {delta : Int32} (h : |delta.toInt| < 32768) :
    ((delta ^^^ (mask b &&& (delta ^^^ -delta))) + 1).toInt =
      1 + if b then -delta.toInt else delta.toInt := by
  have h := abs_lt.mp h
  have hone : (1 : Int32).toInt = 1 := rfl
  cases b with
  | false =>
    rw [mask, if_neg Bool.false_ne_true, Int32.zero_and, Int32.xor_zero, Int32.toInt_add, hone,
      bmod_word (by omega) (by omega), if_neg Bool.false_ne_true]
    ring
  | true =>
    rw [mask, if_pos rfl, Int32.neg_one_and, ← Int32.xor_assoc, Int32.xor_self, Int32.zero_xor,
      Int32.toInt_add, Int32.toInt_neg, hone, bmod_word (x := -delta.toInt) (by omega) (by omega),
      bmod_word (by omega) (by omega), if_pos rfl]
    ring

/-- An entry of the vector moved up by one place. -/
theorem entry_shiftUp (v : Vector α (n + 1)) {i : ℕ} (hi : i ≤ n) :
    entry (shiftUp v) i = if i = 0 then 0 else entry v (i - 1) := by
  rw [shiftUp, entry_tabulate, if_pos (by omega)]

/-- The first half of a step. -/
theorem Simulates.exchange {val : α → ℤ} {swapWord : Int32 → α → α → α × α}
    {widen : α → Int16} (W : Words val swapWord widen) {c : Registers α n}
    {s : Divstep.State (ZMod m)} (h : Simulates m val c s) (hdelta : |s.delta| < 32768) :
    Simulates m val (exchange swapWord widen c) s.exchange := by
  have hpos : (0 : ℤ) < m := by exact_mod_cast (Fact.out : m.Prime).pos
  have hsmall : ∀ {F : ℕ → α}, (∀ i, 2 * |val (F i)| < m) →
      ∀ i, 2 * |val (entry (tabulate (n + 1) F) i)| < m := by
    intro F hF i
    rw [entry_tabulate]
    split_ifs
    · exact hF i
    · rw [W.val_default, abs_zero, mul_zero]
      exact hpos
  have hup : ∀ i ≤ n, (val (entry (shiftUp c.v) i) : ZMod m) = (X * s.v).coeff i := by
    intro i hi
    rw [entry_shiftUp c.v hi]
    cases i with
    | zero => rw [if_pos rfl, W.val_zero, Int.cast_zero, mul_coeff_zero, coeff_X_zero, zero_mul]
    | succ i => rw [if_neg i.succ_ne_zero, coeff_X_mul, Nat.add_sub_cancel, h.v i (by omega)]
  have hupSmall : ∀ i, 2 * |val (entry (shiftUp c.v) i)| < m := by
    refine hsmall fun i => ?_
    split_ifs
    · rw [W.val_zero, abs_zero, mul_zero]
      exact hpos
    · exact h.v_small _
  have hg0 : val (entry c.g 0) ≠ 0 ↔ s.g.coeff 0 ≠ 0 := by
    rw [← h.g 0 (Nat.zero_le n), ne_eq, ne_eq, cast_eq_zero_iff (h.g_small 0)]
  have hc : |c.delta.toInt| < 32768 := by rwa [h.delta]
  rw [Sntrup.exchange, negativeMask_neg hc, nonzeroMask_eq W, mask_and]
  simp only [W.swap]
  rw [Divstep.State.exchange]
  by_cases hswap : 0 < s.delta ∧ s.g.coeff 0 ≠ 0
  · have hb : (decide (0 < c.delta.toInt) && decide (val (entry c.g 0) ≠ 0)) = true := by
      rw [h.delta, Bool.and_eq_true, decide_eq_true_eq, decide_eq_true_eq, hg0]
      exact hswap
    rw [hb, if_pos hswap]
    simp only [if_true]
    exact
      { delta := by rw [toInt_delta true hc, if_pos rfl, h.delta]; ring
        f := fun i hi => by rw [entry_tabulate, if_pos (by omega)]; exact h.g i hi
        g := fun i hi => by rw [entry_tabulate, if_pos (by omega)]; exact h.f i hi
        v := fun i hi => by rw [entry_tabulate, if_pos (by omega)]; exact h.r i hi
        r := fun i hi => by rw [entry_tabulate, if_pos (by omega)]; exact hup i hi
        f_small := hsmall h.g_small
        g_small := hsmall h.f_small
        v_small := hsmall h.r_small
        r_small := hsmall hupSmall }
  · have hb : (decide (0 < c.delta.toInt) && decide (val (entry c.g 0) ≠ 0)) = false := by
      rw [← Bool.not_eq_true, h.delta, Bool.and_eq_true, decide_eq_true_eq, decide_eq_true_eq, hg0]
      exact hswap
    rw [hb, if_neg hswap]
    simp only [Bool.false_eq_true, if_false]
    exact
      { delta := by rw [toInt_delta false hc, if_neg Bool.false_ne_true, h.delta]
        f := fun i hi => by rw [entry_tabulate, if_pos (by omega)]; exact h.f i hi
        g := fun i hi => by rw [entry_tabulate, if_pos (by omega)]; exact h.g i hi
        v := fun i hi => by rw [entry_tabulate, if_pos (by omega)]; exact hup i hi
        r := fun i hi => by rw [entry_tabulate, if_pos (by omega)]; exact h.r i hi
        f_small := hsmall h.f_small
        g_small := hsmall h.g_small
        v_small := hsmall hupSmall
        r_small := hsmall h.r_small }

/-- The second half of a step. -/
theorem Simulates.eliminate {val : α → ℤ} {swapWord : Int32 → α → α → α × α}
    {widen : α → Int16} (W : Words val swapWord widen) {F : Divstep.Factors (ZMod m)}
    {c : Registers α n} {s : Divstep.State (ZMod m)} {combine : α → α → α}
    (h : Simulates m val c s) (habove : ∀ i, n < i → s.f.coeff i = 0 ∧ s.g.coeff i = 0)
    (hcombine : ∀ a b, 2 * |val a| < m → 2 * |val b| < m →
      2 * |val (combine a b)| < m ∧ (val (combine a b) : ZMod m) =
        F.onG (s.f.coeff 0) (s.g.coeff 0) * val a - F.onF (s.f.coeff 0) (s.g.coeff 0) * val b) :
    Simulates m val (eliminate combine c) (s.eliminate F) := by
  have hpos : (0 : ℤ) < m := by exact_mod_cast (Fact.out : m.Prime).pos
  have hzero : 2 * |val (0 : α)| < m := by
    rw [W.val_zero, abs_zero, mul_zero]
    exact hpos
  have hsmall : ∀ {G : ℕ → α}, (∀ i, 2 * |val (G i)| < m) →
      ∀ i, 2 * |val (entry (tabulate (n + 1) G) i)| < m := by
    intro G hG i
    rw [entry_tabulate]
    split_ifs
    · exact hG i
    · rw [W.val_default, abs_zero, mul_zero]
      exact hpos
  have hg := fun i => hcombine _ _ (h.g_small i) (h.f_small i)
  have hr := fun i => hcombine _ _ (h.r_small i) (h.v_small i)
  exact
    { delta := h.delta
      f := h.f
      g := fun i hi => by
        simp only [Sntrup.eliminate, shiftDown, Divstep.State.eliminate, coeff_divX, coeff_sub,
          coeff_C_mul]
        rw [entry_tabulate, if_pos (by omega)]
        split_ifs with hin
        · rw [entry_tabulate, if_pos (by omega), (hg (i + 1)).2, h.g (i + 1) (by omega),
            h.f (i + 1) (by omega)]
        · rw [(habove (i + 1) (by omega)).1, (habove (i + 1) (by omega)).2, mul_zero, mul_zero,
            sub_zero, W.val_zero, Int.cast_zero]
      v := h.v
      r := fun i hi => by
        simp only [Sntrup.eliminate, Divstep.State.eliminate, coeff_sub, coeff_C_mul]
        rw [entry_tabulate, if_pos (by omega), (hr i).2, h.r i hi, h.v i hi]
      f_small := h.f_small
      g_small := hsmall fun i => by
        split_ifs
        · exact hsmall (fun i => (hg i).1) _
        · exact hzero
      v_small := h.v_small
      r_small := hsmall fun i => (hr i).1 }

/-- The polynomials before the loop. -/
noncomputable def startState (m : ℕ) [Fact m.Prime] (val : α → ℤ) (c : Registers α n) (r0 : α) :
    Divstep.State (ZMod m) :=
  ⟨1, residuePolynomial m (n + 1) fun i => val (entry c.f i),
    residuePolynomial m (n + 1) fun i => val (entry c.g i), 0, C (val r0 : ZMod m)⟩

section Start

variable [OfNat α 1] [Neg α] {val : α → ℤ} {swapWord : Int32 → α → α → α × α}
  {widen : α → Int16}

/-- The arrays before the loop hold the polynomials before the loop. -/
theorem simulates_start (W : Words val swapWord widen) (hone : val 1 = 1) (hneg : val (-1) = -1)
    (hm : 2 < m) {r0 : α} {g : ℕ → α} (hr0 : 2 * |val r0| < m) (hg : ∀ i, 2 * |val (g i)| < m) :
    Simulates m val (start r0 g : Registers α n)
      (startState m val (start r0 g : Registers α n) r0) := by
  have hsmall : ∀ {F : ℕ → α}, (∀ i, 2 * |val (F i)| < m) →
      ∀ i, 2 * |val (entry (tabulate (n + 1) F) i)| < m := by
    intro F hF i
    rw [entry_tabulate]
    split_ifs
    · exact hF i
    · rw [W.val_default, abs_zero]
      omega
  have hzero : 2 * |val (0 : α)| < m := by
    rw [W.val_zero, abs_zero]
    omega
  exact
    { delta := rfl
      f := fun i _ => (coeff_residuePolynomial (W.below _) i).symm
      g := fun i _ => (coeff_residuePolynomial (W.below _) i).symm
      v := fun i hi => by
        simp only [start, startState, coeff_zero]
        rw [entry_tabulate, if_pos (by omega), W.val_zero, Int.cast_zero]
      r := fun i hi => by
        simp only [start, startState, coeff_C]
        rw [entry_tabulate, if_pos (by omega)]
        split_ifs
        · rfl
        · rw [W.val_zero, Int.cast_zero]
      f_small := hsmall fun i => by
        split_ifs
        · rw [hneg, abs_neg, abs_one]
          omega
        · rw [hone, abs_one]
          omega
        · exact hzero
      g_small := hsmall fun i => by
        split_ifs
        · exact hg _
        · exact hzero
      v_small := hsmall fun _ => hzero
      r_small := hsmall fun i => by
        split_ifs
        · exact hr0
        · exact hzero }

variable {A : Type*} [CommRing A] [Algebra (ZMod m) A]

/-- The reversed modulus vanishes at the inverse of the point. -/
theorem aeval_start_f (W : Words val swapWord widen) (hone : val 1 = 1) (hneg : val (-1) = -1)
    (hn : 2 ≤ n) {r0 : α} {g : ℕ → α} {x y : A} (hx : x ^ n = x + 1) (hxy : x * y = 1) :
    aeval y (startState m val (start r0 g : Registers α n) r0).f = 0 := by
  have hvalue := aeval_eq_value (p := (startState m val (start r0 g : Registers α n) r0).f) y
    (fun i _ => coeff_residuePolynomial (W.below _) i)
    (fun i hi => by
      rw [startState, coeff_residuePolynomial (W.below _), W.val_entry _ hi,
        Int.cast_zero])
  rw [hvalue, ← reversed_trinomial (by omega) hx hxy]
  obtain ⟨k, rfl⟩ : ∃ k, n = k + 2 := ⟨n - 2, by omega⟩
  have hentry : ∀ i, i < k + 3 → val (entry (start r0 g : Registers α (k + 2)).f i) =
      if k + 1 ≤ i then -1 else if i = 0 then 1 else 0 := by
    intro i hi
    rw [start, entry_tabulate, if_pos (by omega), show k + 2 - 1 = k + 1 by omega]
    split_ifs
    · exact hneg
    · exact hone
    · exact W.val_zero
  have htop : val (entry (start r0 g : Registers α (k + 2)).f (k + 2)) = -1 := by
    rw [hentry _ (by omega), if_pos (by omega)]
  have hnext : val (entry (start r0 g : Registers α (k + 2)).f (k + 1)) = -1 := by
    rw [hentry _ (by omega), if_pos le_rfl]
  have hconst : val (entry (start r0 g : Registers α (k + 2)).f 0) = 1 := by
    rw [hentry _ (by omega), if_neg (by omega), if_pos rfl]
  rw [value, Finset.sum_range_succ, Finset.sum_range_succ, Finset.sum_range_succ',
    htop, hnext, hconst, Finset.sum_eq_zero]
  · push_cast
    ring
  · intro i hi
    have hi := Finset.mem_range.mp hi
    rw [hentry (i + 1) (by omega), if_neg (by omega), if_neg (by omega), Int.cast_zero, zero_mul]

/-- The second input is the reversed argument. -/
theorem aeval_start_g (W : Words val swapWord widen) (r0 : α) {g : ℕ → α} {x y : A}
    (hxy : x * y = 1) :
    aeval y (startState m val (start r0 g : Registers α n) r0).g =
      y ^ (n - 1) * value x n fun i => val (g i) := by
  have hentry : ∀ i, val (entry (start r0 g : Registers α n).g i) =
      if i < n then val (g (n - 1 - i)) else 0 := by
    intro i
    by_cases hi : i < n
    · rw [start, entry_tabulate, if_pos (by omega), if_pos hi, if_pos hi]
    · by_cases hin : i < n + 1
      · rw [start, entry_tabulate, if_pos hin, if_neg hi, if_neg hi, W.val_zero]
      · rw [W.val_entry _ (not_lt.mp hin), if_neg hi]
  rw [← value_reverse hxy n fun i => val (g i)]
  apply aeval_eq_value
  · intro i hi
    rw [startState, coeff_residuePolynomial (W.below _), hentry, if_pos hi]
  · intro i hi
    rw [startState, coeff_residuePolynomial (W.below _), hentry, if_neg (by omega),
      Int.cast_zero]

/-- What holds before the loop. -/
theorem inv_start (W : Words val swapWord widen) (hone : val 1 = 1) (hneg : val (-1) = -1)
    (hn : 2 ≤ n) {r0 : α} {g : ℕ → α} (hr0 : (val r0 : ZMod m) ≠ 0) {x y : A}
    (hx : x ^ n = x + 1) (hxy : x * y = 1) :
    Divstep.Inv n (val r0 : ZMod m) y (y ^ (n - 1) * value x n fun i => val (g i)) 0
      (startState m val (start r0 g : Registers α n) r0) := by
  rw [← aeval_start_g (m := m) W r0 hxy]
  apply Divstep.Inv.init
  · rw [coeff_residuePolynomial (W.below _), start, entry_tabulate,
      if_pos (by omega), if_neg (by omega), if_pos rfl, hone, Int.cast_one]
    exact one_ne_zero
  · exact hr0
  · intro i hi
    rw [coeff_residuePolynomial (W.below _), W.val_entry _ hi,
      Int.cast_zero]
  · intro i hi
    rw [startState, coeff_residuePolynomial (W.below _), start, entry_tabulate]
    split_ifs
    · omega
    · rw [W.val_zero, Int.cast_zero]
    · rw [W.val_default, Int.cast_zero]
  · exact aeval_start_f W hone hneg hn hx hxy

/-- The loop decides whether the argument has an inverse and finds one. -/
theorem divsteps_spec {step : Registers α n → Registers α n} {F : Divstep.Factors (ZMod m)}
    (W : Words val swapWord widen) (hone : val 1 = 1) (hneg : val (-1) = -1) (hn : 2 ≤ n)
    (hnmax : n ≤ 3000) (hm : 2 < m) {r0 : α} {g : ℕ → α} (hr0 : (val r0 : ZMod m) ≠ 0)
    (hr0small : 2 * |val r0| < m) (hg : ∀ i, 2 * |val (g i)| < m)
    (hstep : ∀ {c s}, Simulates m val c s → |s.delta| < 32768 →
      (∀ i, n < i → s.f.coeff i = 0 ∧ s.g.coeff i = 0) →
      Simulates m val (step c) (Divstep.step F s)) :
    let c := divsteps step (start r0 g) (2 * n - 1)
    let x := trinomialRoot m n
    |c.delta.toInt| < 32768 ∧ (∀ i, 2 * |val (entry c.f i)| < m) ∧
      (∀ i, 2 * |val (entry c.v i)| < m) ∧ (val (entry c.f 0) : ZMod m) ≠ 0 ∧
      (c.delta.toInt = 0 ↔ IsUnit (value x n fun i => val (g i))) ∧
      (c.delta.toInt = 0 → value x n (fun i => val (entry c.v (n - 1 - i))) *
        value x n (fun i => val (g i)) =
          ((val r0 * val (entry c.f 0) : ℤ) : TrinomialRing m n)) := by
  intro c x
  have hx : x ^ n = x + 1 := trinomialRoot_pow m n
  have hxy : x * (x ^ (n - 1) - 1) = 1 := mul_pow_sub_one (by omega) hx
  set y := x ^ (n - 1) - 1
  have hinv := inv_start (g := g) W hone hneg hn hr0 hx hxy
  have hsim := (simulates_start (n := n) W hone hneg hm hr0small hg).divsteps hstep hinv
    (2 * n - 1) (by omega)
  have hfinal := hinv.run F (2 * n - 1)
  set s := Divstep.run F (startState m val (start r0 g : Registers α n) r0) (2 * n - 1)
  have hf0 : (val (entry c.f 0) : ZMod m) ≠ 0 := by
    rw [hsim.f 0 (Nat.zero_le n)]
    exact hfinal.f_zero
  have hunit : ((val r0 * val (entry c.f 0) : ℤ) : ZMod m) ≠ 0 := by
    rw [Int.cast_mul]
    exact mul_ne_zero hr0 hf0
  have hcast : ∀ z : ℤ, algebraMap (ZMod m) (TrinomialRing m n) z = z := map_intCast _
  have hinverse : c.delta.toInt = 0 → value x n (fun i => val (entry c.v (n - 1 - i))) *
      value x n (fun i => val (g i)) =
        ((val r0 * val (entry c.f 0) : ℤ) : TrinomialRing m n) := by
    intro hdelta
    obtain ⟨hv, heq⟩ := hfinal.inverse (by omega) (hsim.delta.symm.trans hdelta)
    have hvalue : aeval y s.v = value y n fun i => val (entry c.v i) :=
      aeval_eq_value y (fun i hi => (hsim.v i (by omega)).symm) hv
    have hrev := value_eq_reverse hxy n fun i => val (entry c.v i)
    rw [hvalue, hrev, ← hsim.f 0 (Nat.zero_le n), ← Int.cast_mul, Algebra.smul_def, hcast] at heq
    have hpow : y ^ (2 * n - 1) * x ^ (2 * n - 1) = 1 := by
      rw [← mul_pow, mul_comm, hxy, one_pow]
    have hsplit : y ^ (2 * n - 1) = y * y ^ (n - 1) * y ^ (n - 1) := by
      rw [← pow_succ', ← pow_add, show n - 1 + 1 + (n - 1) = 2 * n - 1 by omega]
    calc value x n (fun i => val (entry c.v (n - 1 - i))) * value x n (fun i => val (g i))
        = (y ^ (2 * n - 1) * x ^ (2 * n - 1)) *
            (value x n (fun i => val (entry c.v (n - 1 - i))) *
              value x n (fun i => val (g i))) := by rw [hpow, one_mul]
      _ = (((val r0 * val (entry c.f 0) : ℤ) : TrinomialRing m n) * y ^ (2 * n - 1)) *
            x ^ (2 * n - 1) := by rw [heq, hsplit]; ring
      _ = _ := by rw [mul_assoc, hpow, mul_one]
  refine ⟨?_, hsim.f_small, hsim.v_small, hf0, ⟨?_, ?_⟩, hinverse⟩
  · rw [hsim.delta]
    exact lt_of_le_of_lt hfinal.delta_abs (by omega)
  · intro hdelta
    apply isUnit_of_mul_isUnit_right (x := value x n fun i => val (entry c.v (n - 1 - i)))
    rw [hinverse hdelta, ← hcast]
    exact (isUnit_iff_ne_zero.mpr hunit).map _
  · -- otherwise the multiplier that annihilates the argument would be zero
    intro hIsUnit
    by_contra hdelta
    rw [hsim.delta] at hdelta
    obtain ⟨hr, hrhigh, hzero⟩ := hfinal.annihilates (by omega) hdelta
    apply hr
    have hvalue : aeval y s.r = value y n fun i => val (entry c.r i) :=
      aeval_eq_value y (fun i hi => (hsim.r i (by omega)).symm) hrhigh
    have hrev := value_eq_reverse hxy n fun i => val (entry c.r i)
    rw [hvalue, hrev] at hzero
    have hyunit : IsUnit y := IsUnit.of_mul_eq_one x (by rw [mul_comm, hxy])
    have hvanish : value x n (fun i => val (entry c.r (n - 1 - i))) = 0 := by
      have h1 := (((hyunit.pow (n - 1)).mul hIsUnit).mul_left_eq_zero).mp hzero
      exact ((hyunit.pow (n - 1)).mul_right_eq_zero).mp h1
    ext i
    rw [coeff_zero]
    by_cases hi : i < n
    · have hcoeff := modEq_of_value_eq (m := m) (n := n) (by omega) (by omega)
        (f := fun i => val (entry c.r (n - 1 - i))) (g := fun _ => 0)
        (by rw [hvanish]; simp [value]) (i := n - 1 - i) (by omega)
      simp only [show n - 1 - (n - 1 - i) = i by omega, Int.cast_zero] at hcoeff
      rw [← hsim.r i (by omega), hcoeff]
    · exact hrhigh i (not_lt.mp hi)

end Start

end Simulation

/-! ### Inversion modulo `q` -/

section Results

variable {n : ℕ}

/-- The words modulo `q`. -/
theorem words_fq : Words Int16.toInt maskSwapFq id where
  val_default := rfl
  val_zero := rfl
  swap := maskSwapFq_mask
  widen _ := Int16.toInt_inj.symm

/-- The small words. -/
theorem words_small : Words Int8.toInt maskSwapSmall Int8.toInt16 where
  val_default := rfl
  val_zero := rfl
  swap := maskSwapSmall_mask
  widen x := by rw [← Int16.toInt_inj, Int8.toInt_toInt16]; rfl

/-- `f0 * g - g0 * f`. -/
def crossFactors (K : Type*) [Field K] : Divstep.Factors K where
  onG f0 _ := f0
  onF _ g0 := g0
  onG_ne_zero h := h
  cancel _ := mul_comm _ _

/-- `g - f0 * g0 * f`, which cancels as `f0` is its own inverse. -/
def signFactors : Divstep.Factors (ZMod 3) where
  onG _ _ := 1
  onF f0 g0 := f0 * g0
  onG_ne_zero _ := one_ne_zero
  cancel {f0 g0} := by revert f0 g0; decide

/-- The exchange keeps what lies above. -/
theorem exchange_above {K : Type*} [Field K] [DecidableEq K] {s : Divstep.State K}
    (h : ∀ i, n < i → s.f.coeff i = 0 ∧ s.g.coeff i = 0) {i : ℕ} (hi : n < i) :
    s.exchange.f.coeff i = 0 ∧ s.exchange.g.coeff i = 0 := by
  rw [Divstep.State.exchange]
  split_ifs
  · exact (h i hi).symm
  · exact h i hi

/-- What lies within half of `q` is a residue. -/
theorem residue_of_lt {x : ℤ} (h : 2 * |x| < (4591 : ℕ)) : Residue x := by
  rw [Residue]
  push_cast at h
  omega

/-- One step of `crypto_core_inv`. -/
theorem Simulates.divstepFq {c : Registers Int16 n} {s : Divstep.State (ZMod 4591)}
    (h : Simulates 4591 Int16.toInt c s) (hdelta : |s.delta| < 32768)
    (habove : ∀ i, n < i → s.f.coeff i = 0 ∧ s.g.coeff i = 0) :
    Simulates 4591 Int16.toInt (divstepFq c) (Divstep.step (crossFactors _) s) := by
  have hmid := h.exchange words_fq hdelta
  rw [Divstep.step, Sntrup.divstepFq]
  apply hmid.eliminate words_fq fun i hi => exchange_above habove hi
  intro a b ha hb
  set f0 := entry (Sntrup.exchange maskSwapFq id c).f 0
  set g0 := entry (Sntrup.exchange maskSwapFq id c).g 0
  have hf0 : Residue f0.toInt := residue_of_lt (hmid.f_small 0)
  have hg0 : Residue g0.toInt := residue_of_lt (hmid.g_small 0)
  obtain ⟨hfst, hfstLe⟩ := toInt_mul_residue hf0 (residue_of_lt ha)
  obtain ⟨hsnd, hsndLe⟩ := toInt_mul_residue hg0 (residue_of_lt hb)
  have h1 := abs_le.mp hfstLe
  have h2 := abs_le.mp hsndLe
  have hdiff : (f0.toInt32 * a.toInt32 - g0.toInt32 * b.toInt32).toInt =
      f0.toInt * a.toInt - g0.toInt * b.toInt := by
    rw [Int32.toInt_sub, hfst, hsnd, bmod_word (by omega) (by omega)]
  rw [fqBigfreeze_toInt (abs_le.mpr ⟨by rw [hdiff]; omega, by rw [hdiff]; omega⟩), hdiff]
  refine ⟨abs_bmod_lt _ (by decide), ?_⟩
  rw [cast_bmod, ← hmid.f 0 (Nat.zero_le n), ← hmid.g 0 (Nat.zero_le n)]
  push_cast [crossFactors]
  rfl

/-- One step of `crypto_core_inv3`. -/
theorem Simulates.divstep3 {c : Registers Int8 n} {s : Divstep.State (ZMod 3)}
    (h : Simulates 3 Int8.toInt c s) (hdelta : |s.delta| < 32768)
    (habove : ∀ i, n < i → s.f.coeff i = 0 ∧ s.g.coeff i = 0) :
    Simulates 3 Int8.toInt (divstep3 c) (Divstep.step signFactors s) := by
  have hmid := h.exchange words_small hdelta
  rw [Divstep.step, Sntrup.divstep3]
  apply hmid.eliminate words_small fun i hi => exchange_above habove hi
  intro a b ha hb
  have hsign : (-(entry c.g 0).toInt32 * (entry c.f 0).toInt32).toInt =
      -((entry c.g 0).toInt * (entry c.f 0).toInt) ∧
      |(entry c.g 0).toInt * (entry c.f 0).toInt| ≤ 1 := by
    have hg := h.g_small 0
    have hf := h.f_small 0
    have hle : |(entry c.g 0).toInt * (entry c.f 0).toInt| ≤ 1 := by
      rw [abs_mul]
      exact mul_le_one₀ (by push_cast at hg; omega) (abs_nonneg _) (by push_cast at hf; omega)
    have hle' := abs_le.mp hle
    have hneg : (-(entry c.g 0).toInt32).toInt = -(entry c.g 0).toInt := by
      have := (entry c.g 0).toInt_lt
      have := (entry c.g 0).le_toInt
      rw [Int32.toInt_neg, Int8.toInt_toInt32, bmod_word (by omega) (by omega)]
    rw [Int32.toInt_mul, hneg, Int8.toInt_toInt32, neg_mul, bmod_word (by omega) (by omega)]
    exact ⟨rfl, hle⟩
  obtain ⟨hsign, hsignLe⟩ := hsign
  set sign := -(entry c.g 0).toInt32 * (entry c.f 0).toInt32
  have hprodLe : |sign.toInt * b.toInt| ≤ 1 := by
    rw [abs_mul, hsign, abs_neg]
    exact mul_le_one₀ hsignLe (abs_nonneg _) (by push_cast at hb; omega)
  have h1 := abs_le.mp hprodLe
  have h2 : -1 ≤ a.toInt ∧ a.toInt ≤ 1 := abs_le.mp (by push_cast at ha; omega)
  have hsum : (a.toInt32 + sign * b.toInt32).toInt16.toInt = a.toInt + sign.toInt * b.toInt := by
    rw [Int32.toInt_toInt16, Int32.toInt_add, Int32.toInt_mul, Int8.toInt_toInt32,
      Int8.toInt_toInt32, bmod_word (x := sign.toInt * b.toInt) (by omega) (by omega),
      bmod_word (by omega) (by omega), bmod_halfword (by omega) (by omega)]
  rw [f3Freeze_toInt (by rw [hsum]; omega) (by rw [hsum]; omega), hsum]
  refine ⟨abs_bmod_lt _ (by decide), ?_⟩
  -- the product of the constant terms is the same before and after the exchange
  have hproduct : s.exchange.f.coeff 0 * s.exchange.g.coeff 0 =
      s.g.coeff 0 * s.f.coeff 0 := by
    rw [Divstep.State.exchange]
    split_ifs
    · rfl
    · exact mul_comm _ _
  rw [cast_bmod, hsign]
  push_cast [signFactors]
  rw [hproduct, ← h.g 0 (Nat.zero_le n), ← h.f 0 (Nat.zero_le n)]
  ring

/-- The flag after the result. -/
theorem toInt16_eq_zero_iff {delta : Int32} (h : |delta.toInt| < 32768) :
    delta.toInt16 = 0 ↔ delta.toInt = 0 := by
  have h := abs_lt.mp h
  rw [← Int16.toInt_inj, Int32.toInt_toInt16, bmod_halfword (by omega) (by omega)]
  rfl

/-- `crypto_core_inv`: the flag is zero exactly when the argument has an inverse modulo `q`, and
then the result is the inverse of three times the argument. -/
theorem cryptoCoreInv_spec (hn : 2 ≤ n) (hnmax : n ≤ 3000) (inbytes : Vector Int8 n) :
    let x := trinomialRoot 4591 n
    (∀ i, Residue (fqInts (rqRecip3 inbytes) i)) ∧
      ((cryptoCoreInv inbytes).2 = 0 ∨ (cryptoCoreInv inbytes).2 = 255) ∧
      ((cryptoCoreInv inbytes).2 = 0 ↔ IsUnit (value x n (smallInts inbytes))) ∧
      ((cryptoCoreInv inbytes).2 = 0 → value x n (fqInts (rqRecip3 inbytes)) *
        (3 * value x n (smallInts inbytes)) = 1) := by
  intro x
  have hthree : Residue (3 : Int16).toInt := by
    rw [Residue, show (3 : Int16).toInt = 3 from rfl]
    norm_num
  have hr0 := fqRecip_spec hthree
  have hr0ne : ((fqRecip 3).toInt : ZMod 4591) ≠ 0 := by
    rw [hr0.2]
    exact inv_ne_zero (by decide)
  have hspec := divsteps_spec (n := n) (g := fun i => (entry inbytes i).toInt16) words_fq rfl rfl hn
    hnmax (by norm_num) hr0ne (Residue.two_mul_lt hr0.1)
    (fun i => by
      have h1 := (entry inbytes i).toInt_lt
      have h2 := (entry inbytes i).le_toInt
      rw [Int8.toInt_toInt16]
      have h3 : |(entry inbytes i).toInt| ≤ 128 := abs_le.mpr ⟨by omega, by omega⟩
      push_cast
      omega)
    Simulates.divstepFq
  simp only [Int8.toInt_toInt16] at hspec
  set c := divsteps divstepFq (start (fqRecip 3) fun i => (entry inbytes i).toInt16 :
    Registers Int16 n) (2 * n - 1) with hc
  obtain ⟨hdelta, hf, hv, hf0, hiff, hinv⟩ := hspec
  have hflag : (cryptoCoreInv inbytes).2 = if c.delta.toInt = 0 then 0 else 255 := by
    rw [cryptoCoreInv]
    simp only [int16NonzeroMask_eq, ← hc, toInt16_eq_zero_iff hdelta]
    split_ifs <;> rfl
  have hzero : (cryptoCoreInv inbytes).2 = 0 ↔ c.delta.toInt = 0 := by
    rw [hflag]
    split_ifs with h
    · exact iff_of_true rfl h
    · exact iff_of_false (by decide) h
  have hscale := fqRecip_spec (residue_of_lt (hf 0))
  have hout : ∀ i, fqInts (rqRecip3 inbytes) i = if i < n then
      ((fqRecip (entry c.f 0)).toInt * (entry c.v (n - 1 - i)).toInt).bmod 4591 else 0 := by
    intro i
    rw [rqRecip3, cryptoCoreInv, decodePxint16_encodePxint16, fqInts, entry_tabulate]
    simp only [← hc]
    split_ifs with hi
    · obtain ⟨hprod, hle⟩ := toInt_mul_residue hscale.1 (residue_of_lt (hv (n - 1 - i)))
      rw [fqBigfreeze_toInt (by rw [hprod]; omega), hprod]
    · rfl
  refine ⟨fun i => ?_, ?_, hzero.trans hiff, fun hflag0 => ?_⟩
  · rw [hout]
    split_ifs
    · exact residue_bmod _
    · exact residue_zero
  · rw [hflag]
    split_ifs
    · exact Or.inl rfl
    · exact Or.inr rfl
  · have hvalue : value x n (fqInts (rqRecip3 inbytes)) = ((fqRecip (entry c.f 0)).toInt : ℤ) *
        value x n (fun i => (entry c.v (n - 1 - i)).toInt) := by
      rw [← value_mul_left]
      apply value_congr (m := 4591)
      intro i hi
      rw [hout, if_pos hi, cast_bmod]
    have hunits : (((fqRecip (entry c.f 0)).toInt *
        (3 * ((fqRecip 3).toInt * (entry c.f 0).toInt)) : ℤ) : ZMod 4591) = 1 := by
      push_cast
      rw [hscale.2, hr0.2, show (3 : Int16).toInt = 3 from rfl]
      push_cast
      rw [mul_inv_cancel_left₀ (by decide : (3 : ZMod 4591) ≠ 0)]
      exact inv_mul_cancel₀ hf0
    have hmap := congrArg (algebraMap (ZMod 4591) (TrinomialRing 4591 n)) hunits
    rw [map_intCast, map_one] at hmap
    have hprod : value x n (fun i => (entry c.v (n - 1 - i)).toInt) *
        value x n (smallInts inbytes) =
          (((fqRecip 3).toInt * (entry c.f 0).toInt : ℤ) : TrinomialRing 4591 n) :=
      hinv (hzero.mp hflag0)
    rw [hvalue, ← hmap]
    push_cast at hprod ⊢
    linear_combination
      (3 * ((fqRecip (entry c.f 0)).toInt : TrinomialRing 4591 n)) * hprod

/-- `crypto_core_inv3`: the flag is zero exactly when the argument has an inverse modulo 3, and
then the result is the inverse. -/
theorem cryptoCoreInv3_spec (hn : 2 ≤ n) (hnmax : n ≤ 3000) {inbytes : Vector Int8 n}
    (hin : ∀ i, |smallInts inbytes i| ≤ 1) :
    let x := trinomialRoot 3 n
    (∀ i, |smallInts (cryptoCoreInv3 inbytes).1 i| ≤ 1) ∧
      ((cryptoCoreInv3 inbytes).2 = 0 ∨ (cryptoCoreInv3 inbytes).2 = -1) ∧
      ((cryptoCoreInv3 inbytes).2 = 0 ↔ IsUnit (value x n (smallInts inbytes))) ∧
      ((cryptoCoreInv3 inbytes).2 = 0 → value x n (smallInts (cryptoCoreInv3 inbytes).1) *
        value x n (smallInts inbytes) = 1) := by
  intro x
  have hspec := divsteps_spec (n := n) (m := 3) (g := fun i => smallBits (entry inbytes i))
    words_small rfl rfl hn hnmax (by norm_num)
    (by decide : ((Int8.toInt 1 : ℤ) : ZMod 3) ≠ 0) (by decide)
    (fun i => by
      have h := hin i
      rw [smallInts] at h
      rw [smallBits_small h]
      push_cast
      omega)
    Simulates.divstep3
  set c := divsteps divstep3 (start 1 fun i => smallBits (entry inbytes i) :
    Registers Int8 n) (2 * n - 1) with hc
  obtain ⟨hdelta, hf, hv, hf0, hiff, hinv⟩ := hspec
  have hvalueIn : value x n (fun i => (smallBits (entry inbytes i)).toInt) =
      value x n (smallInts inbytes) := by
    have hbits : (fun i => (smallBits (entry inbytes i)).toInt) = smallInts inbytes := by
      funext i
      rw [smallBits_small (hin i), smallInts]
    rw [hbits]
  have hflag : (cryptoCoreInv3 inbytes).2 = if c.delta.toInt = 0 then 0 else -1 := by
    rw [cryptoCoreInv3]
    simp only [int16NonzeroMask_eq, ← hc, toInt16_eq_zero_iff hdelta]
    split_ifs <;> rfl
  have hzero : (cryptoCoreInv3 inbytes).2 = 0 ↔ c.delta.toInt = 0 := by
    rw [hflag]
    split_ifs with h
    · exact iff_of_true rfl h
    · exact iff_of_false (by decide) h
  have hprodLe : ∀ i, |(entry c.f 0).toInt * (entry c.v i).toInt| ≤ 1 := by
    intro i
    have h1 := hf 0
    have h2 := hv i
    rw [abs_mul]
    exact mul_le_one₀ (by push_cast at h1; omega) (abs_nonneg _) (by push_cast at h2; omega)
  have hout : ∀ i, smallInts (cryptoCoreInv3 inbytes).1 i = if i < n then
      (entry c.f 0).toInt * (entry c.v (n - 1 - i)).toInt else 0 := by
    intro i
    have h := abs_le.mp (hprodLe (n - 1 - i))
    rw [cryptoCoreInv3, smallInts, entry_tabulate]
    simp only [← hc]
    split_ifs with hi
    · rw [Int32.toInt_toInt8, Int32.toInt_mul, Int8.toInt_toInt32, Int8.toInt_toInt32,
        bmod_word (by omega) (by omega), bmod_byte (by omega) (by omega)]
    · rfl
  refine ⟨fun i => ?_, ?_, ?_, fun hflag0 => ?_⟩
  · rw [hout]
    split_ifs
    · exact hprodLe _
    · rw [abs_zero]
      norm_num
  · rw [hflag]
    split_ifs
    · exact Or.inl rfl
    · exact Or.inr rfl
  · rw [hzero, ← hvalueIn]
    exact hiff
  · have hvalue : value x n (smallInts (cryptoCoreInv3 inbytes).1) = ((entry c.f 0).toInt : ℤ) *
        value x n (fun i => (entry c.v (n - 1 - i)).toInt) := by
      rw [← value_mul_left]
      apply Finset.sum_congr rfl
      intro i hi
      rw [hout, if_pos (Finset.mem_range.mp hi)]
    -- the constant term is its own inverse
    have hself : (((entry c.f 0).toInt * ((1 : Int8).toInt * (entry c.f 0).toInt) : ℤ) : ZMod 3) =
        1 := by
      rw [show (1 : Int8).toInt = 1 from rfl, one_mul, Int.cast_mul]
      generalize ((entry c.f 0).toInt : ZMod 3) = z at hf0
      revert z
      decide
    have hmap := congrArg (algebraMap (ZMod 3) (TrinomialRing 3 n)) hself
    rw [map_intCast, map_one] at hmap
    have hprod : value x n (fun i => (entry c.v (n - 1 - i)).toInt) *
        value x n (smallInts inbytes) =
          (((1 : Int8).toInt * (entry c.f 0).toInt : ℤ) : TrinomialRing 3 n) := by
      rw [← hvalueIn]
      exact hinv (hzero.mp hflag0)
    rw [hvalue, ← hmap]
    push_cast at hprod ⊢
    linear_combination ((entry c.f 0).toInt : TrinomialRing 3 n) * hprod

end Results

end SimpleGo.Sntrup
