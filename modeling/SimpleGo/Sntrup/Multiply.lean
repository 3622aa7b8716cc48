import Mathlib.Algebra.BigOperators.Intervals
import SimpleGo.Lib.Trinomial
import SimpleGo.Sntrup.Arithmetic

/-!
# Multiplication in the two rings

`crypto_core_mult` multiplies modulo `q` and `crypto_core_mult3` modulo 3, both modulo
`x ^ p - x - 1`, and one by a polynomial with coefficients `-1`, `0` and `1`. They are the same
loops over different words: the `2 * p - 1` coefficients of the product, each reduced once, and
then from the top down every upper coefficient added at its two places below. The number `n` of
coefficients is a parameter here. The coefficients of the result are the nearest residues of
those of the product (`Reduction.Lawful.coreMult`).
-/

namespace SimpleGo.Sntrup

open Lib Finset

/-! ### The loops -/

/-- The words of one multiplication: entries in `α`, sums in `γ`. -/
structure Reduction (α γ : Type) where
  product : α → Int8 → γ
  widen : α → γ
  freeze : γ → α

section Loops

variable {α γ : Type} [Inhabited α] [OfNat γ 0] [Add γ] (R : Reduction α γ) {n : ℕ}

/-- `for (j = lo; j < lo + count; ++j) result += f[j] * g[k - j]`. -/
def dot (f : Vector α n) (g : Vector Int8 n) (k lo : ℕ) : (count : ℕ) → γ
  | 0 => 0
  | count + 1 => dot f g k lo count + R.product (entry f (lo + count)) (entry g (k - (lo + count)))

/-- `fg`: the coefficients of the product. -/
def products (f : Vector α n) (g : Vector Int8 n) : Vector α (2 * n - 1) :=
  tabulate (2 * n - 1) fun i =>
    if i < n then R.freeze (dot R f g i 0 (i + 1))
    else R.freeze (dot R f g i (i - n + 1) (n - (i - n + 1)))

/-- `fg[i - p]` and `fg[i - p + 1]` take up `fg[i]`. -/
def foldPlace (fg : Vector α (2 * n - 1)) (i : ℕ) : Vector α (2 * n - 1) :=
  let fg := fg.setIfInBounds (i - n) (R.freeze (R.widen (entry fg (i - n)) + R.widen (entry fg i)))
  fg.setIfInBounds (i - n + 1)
    (R.freeze (R.widen (entry fg (i - n + 1)) + R.widen (entry fg i)))

/-- `for (i = p + p - 2; i >= p; --i)`, for a number of rounds. -/
def foldLoop (fg : Vector α (2 * n - 1)) : (rounds : ℕ) → Vector α (2 * n - 1)
  | 0 => fg
  | rounds + 1 => foldPlace R (foldLoop fg rounds) (2 * n - 2 - rounds)

/-- The body of `crypto_core_mult` and `crypto_core_mult3`. -/
def coreMult (f : Vector α n) (g : Vector Int8 n) : Vector α n :=
  tabulate n (entry (foldLoop R (products R f g) (n - 1)))

end Loops

/-! ### What the loops compute -/

/-- `R` computes modulo `m` with sums below `limit`. -/
structure Reduction.Lawful {α γ : Type} [Inhabited α] [OfNat γ 0] [Add γ] (R : Reduction α γ)
    (val : α → ℤ) (sum : γ → ℤ) (m : ℕ) (limit : ℤ) : Prop where
  val_default : val default = 0
  zero : sum 0 = 0
  add : ∀ {a b}, |sum a + sum b| < limit → sum (a + b) = sum a + sum b
  product : ∀ {a b}, 2 * |val a| < m → |b.toInt| ≤ 1 → sum (R.product a b) = val a * b.toInt
  widen : ∀ a, sum (R.widen a) = val a
  freeze : ∀ {x}, |sum x| < limit → val (R.freeze x) = (sum x).bmod m

/-- The integers of a `small` array. -/
def smallInts {n : ℕ} (g : Vector Int8 n) (i : ℕ) : ℤ := (entry g i).toInt

/-- The integers of an `Fq` array. -/
def fqInts {n : ℕ} (f : Vector Int16 n) (i : ℕ) : ℤ := (entry f i).toInt

/-- The integers of a `small` array end with it. -/
theorem below_smallInts {n : ℕ} (g : Vector Int8 n) : ZeroFrom n (smallInts g) := fun i hi => by
  rw [smallInts, entry_of_le g hi]
  rfl

/-- The integers of an `Fq` array end with it. -/
theorem below_fqInts {n : ℕ} (f : Vector Int16 n) : ZeroFrom n (fqInts f) := fun i hi => by
  rw [fqInts, entry_of_le f hi]
  rfl

/-- The nearest residue modulo an odd number lies within its half. -/
theorem abs_bmod_lt (x : ℤ) {m : ℕ} (hm : Odd m) : 2 * |x.bmod m| < m := by
  obtain ⟨k, rfl⟩ := hm
  have h1 := Int.le_bmod (x := x) (m := 2 * k + 1) (by omega)
  have h2 := Int.bmod_lt (x := x) (m := 2 * k + 1) (by omega)
  have h3 : |x.bmod (2 * k + 1)| ≤ k := abs_le.mpr ⟨by omega, by omega⟩
  omega

/-- A small number is the residue of everything congruent to it. -/
theorem eq_bmod_of_cast {x y : ℤ} {m : ℕ} (hy : 2 * |y| < m) (h : (y : ZMod m) = x) :
    y = x.bmod m := by
  obtain ⟨k, hk⟩ := (ZMod.intCast_eq_intCast_iff_dvd_sub y x m).mp h
  have habs := abs_le.mp (le_refl |y|)
  exact eq_bmod (k := k) (by omega) (by omega) (by omega)

namespace Reduction.Lawful

variable {α γ : Type} [Inhabited α] [OfNat γ 0] [Add γ] {R : Reduction α γ} {val : α → ℤ}
  {sum : γ → ℤ} {m : ℕ} {limit : ℤ} {n : ℕ}

/-- A partial sum is exact. -/
theorem dot (h : R.Lawful val sum m limit) {f : Vector α n} {g : Vector Int8 n}
    (hf : ∀ i, 2 * |val (entry f i)| < m) (hg : ∀ i, |smallInts g i| ≤ 1) (k lo : ℕ) (count : ℕ)
    (hlimit : (count : ℤ) * m < 2 * limit) :
    sum (dot R f g k lo count) =
        ∑ j ∈ range count, val (entry f (lo + j)) * smallInts g (k - (lo + j)) ∧
      2 * |∑ j ∈ range count, val (entry f (lo + j)) * smallInts g (k - (lo + j))| ≤
        count * m := by
  induction count with
  | zero => simp [Sntrup.dot, h.zero]
  | succ count ih =>
    push_cast at hlimit ⊢
    obtain ⟨hsum, hle⟩ := ih (by linarith [show (0 : ℤ) ≤ m by positivity])
    have hterm : |val (entry f (lo + count)) * smallInts g (k - (lo + count))| ≤
        |val (entry f (lo + count))| := by
      rw [abs_mul]
      exact mul_le_of_le_one_right (abs_nonneg _) (hg _)
    have hlt := hf (lo + count)
    have hadd := abs_add_le (∑ j ∈ range count, val (entry f (lo + j)) * smallInts g (k - (lo + j)))
      (val (entry f (lo + count)) * smallInts g (k - (lo + count)))
    rw [sum_range_succ]
    refine ⟨?_, by linarith⟩
    rw [Sntrup.dot, h.add, h.product hlt (hg _), hsum]
    · rfl
    · rw [h.product hlt (hg _), hsum]
      exact lt_of_le_of_lt hadd (by linarith)

/-- The coefficients of the product, reduced. -/
theorem products (h : R.Lawful val sum m limit) (hlimit : (n : ℤ) * m < 2 * limit)
    {f : Vector α n} {g : Vector Int8 n} (hf : ∀ i, 2 * |val (entry f i)| < m)
    (hg : ∀ i, |smallInts g i| ≤ 1) {i : ℕ} (hi : i < 2 * n - 1) :
    val (entry (products R f g) i) =
      (coeffProduct (fun i => val (entry f i)) (smallInts g) i).bmod m := by
  have hzero : ∀ j, n ≤ j → val (entry f j) = 0 := fun j hj => by
    rw [entry_of_le f hj, h.val_default]
  rw [Sntrup.products, entry_tabulate, if_pos hi, coeffProduct]
  split_ifs with hin
  · have hcount : ((i + 1 : ℕ) : ℤ) * m < 2 * limit :=
      lt_of_le_of_lt (mul_le_mul_of_nonneg_right (by omega) (by positivity)) hlimit
    obtain ⟨hsum, hle⟩ := h.dot hf hg i 0 (i + 1) hcount
    rw [h.freeze (by rw [hsum]; omega), hsum]
    simp only [zero_add]
  · have hcount : ((n - (i - n + 1) : ℕ) : ℤ) * m < 2 * limit :=
      lt_of_le_of_lt (mul_le_mul_of_nonneg_right (by omega) (by positivity)) hlimit
    obtain ⟨hsum, hle⟩ := h.dot hf hg i (i - n + 1) (n - (i - n + 1)) hcount
    rw [h.freeze (by rw [hsum]; omega), hsum]
    -- outside of the loop one factor is zero
    congr 1
    rw [← sum_Ico_eq_sum_range (fun j => val (entry f j) * smallInts g (i - j)) (i - n + 1) n]
    apply sum_subset
    · intro j hj
      have hj := mem_Ico.mp hj
      exact mem_range.mpr (by omega)
    · intro j hj hout
      have hj := mem_range.mp hj
      by_cases hlow : j < i - n + 1
      · rw [below_smallInts g (i - j) (by omega), mul_zero]
      · rw [hzero j (by simp only [mem_Ico, not_and, not_lt] at hout; omega), zero_mul]

/-- One place taken up: a residue again, and the sum modulo `m`. -/
theorem freeze_add (h : R.Lawful val sum m limit) (hlimit : (m : ℤ) < limit) (hm : Odd m) {a b : α}
    (ha : 2 * |val a| < m) (hb : 2 * |val b| < m) :
    2 * |val (R.freeze (R.widen a + R.widen b))| < m ∧
      (val (R.freeze (R.widen a + R.widen b)) : ZMod m) = val a + val b := by
  have hlt : |sum (R.widen a) + sum (R.widen b)| < limit := by
    rw [h.widen, h.widen]
    exact lt_of_le_of_lt (abs_add_le _ _) (by omega)
  rw [h.freeze (by rw [h.add hlt]; exact hlt), h.add hlt, h.widen, h.widen]
  exact ⟨abs_bmod_lt _ hm, by rw [cast_bmod, Int.cast_add]⟩

/-- What the loop from the top has added at place `j` after some rounds. -/
def folded (n rounds : ℕ) (c : ℕ → ℤ) (j : ℕ) : ℤ :=
  c j + (if 2 * n - 1 - rounds ≤ j + n ∧ j + n < 2 * n - 1 then c (j + n) else 0) +
    if 1 ≤ j ∧ 2 * n - 1 - rounds ≤ j + n - 1 then c (j + n - 1) else 0

/-- One round adds the next upper coefficient at its two places. -/
theorem folded_succ {rounds : ℕ} (hrounds : rounds + 2 ≤ n) (c : ℕ → ℤ) {j : ℕ} (hj : j < n) :
    folded n (rounds + 1) c j = folded n rounds c j +
      ((if 2 * n - 2 - rounds - n = j then c (2 * n - 2 - rounds) else 0) +
        if 2 * n - 2 - rounds - n + 1 = j then c (2 * n - 2 - rounds) else 0) := by
  rw [folded, folded]
  by_cases hfst : 2 * n - 2 - rounds - n = j
  · rw [if_pos (by omega), if_neg (by omega), if_neg (by omega), if_neg (by omega), if_pos hfst,
      if_neg (by omega), show j + n = 2 * n - 2 - rounds by omega]
    ring
  · by_cases hsnd : 2 * n - 2 - rounds - n + 1 = j
    · rw [if_pos (show 1 ≤ j ∧ 2 * n - 1 - (rounds + 1) ≤ j + n - 1 by omega),
        if_neg (show ¬(1 ≤ j ∧ 2 * n - 1 - rounds ≤ j + n - 1) by omega), if_neg hfst, if_pos hsnd,
        show j + n - 1 = 2 * n - 2 - rounds by omega]
      rw [if_congr (show 2 * n - 1 - (rounds + 1) ≤ j + n ∧ j + n < 2 * n - 1 ↔
        2 * n - 1 - rounds ≤ j + n ∧ j + n < 2 * n - 1 by omega) rfl rfl]
      ring
    · rw [if_neg hfst, if_neg hsnd,
        if_congr (show 2 * n - 1 - (rounds + 1) ≤ j + n ∧ j + n < 2 * n - 1 ↔
          2 * n - 1 - rounds ≤ j + n ∧ j + n < 2 * n - 1 by omega) rfl rfl,
        if_congr (show 1 ≤ j ∧ 2 * n - 1 - (rounds + 1) ≤ j + n - 1 ↔
          1 ≤ j ∧ 2 * n - 1 - rounds ≤ j + n - 1 by omega) rfl rfl]
      ring

/-- The loop from the top. -/
theorem foldLoop (h : R.Lawful val sum m limit) (hlimit : (m : ℤ) < limit) (hm : Odd m)
    {fg : Vector α (2 * n - 1)} (hfg : ∀ j, 2 * |val (entry fg j)| < m) (rounds : ℕ)
    (hrounds : rounds + 1 ≤ n) :
    (∀ j, n ≤ j → entry (foldLoop R fg rounds) j = entry fg j) ∧
      (∀ j, 2 * |val (entry (foldLoop R fg rounds) j)| < m) ∧
      ∀ j < n, (val (entry (foldLoop R fg rounds) j) : ZMod m) =
        folded n rounds (fun i => val (entry fg i)) j := by
  induction rounds with
  | zero =>
    refine ⟨fun j _ => rfl, hfg, fun j hj => ?_⟩
    rw [folded, if_neg (by omega), if_neg (by omega), Sntrup.foldLoop, add_zero, add_zero]
  | succ rounds ih =>
    obtain ⟨hhigh, hres, hlow⟩ := ih (by omega)
    set cur := Sntrup.foldLoop R fg rounds with hcur
    set i := 2 * n - 2 - rounds with hi
    have hbig : entry cur i = entry fg i := hhigh i (by omega)
    have hfst := h.freeze_add hlimit hm (hres (i - n)) (hres i)
    set mid := cur.setIfInBounds (i - n)
      (R.freeze (R.widen (entry cur (i - n)) + R.widen (entry cur i))) with hmid
    have hmidEntry : ∀ j, entry mid j = if i - n = j then
        R.freeze (R.widen (entry cur (i - n)) + R.widen (entry cur i)) else entry cur j := by
      intro j
      rw [hmid, entry_setIfInBounds]
      exact if_congr (by omega) rfl rfl
    have hmidRes : ∀ j, 2 * |val (entry mid j)| < m := by
      intro j
      rw [hmidEntry]
      split_ifs
      · exact hfst.1
      · exact hres j
    have hsnd := h.freeze_add hlimit hm (hmidRes (i - n + 1)) (hmidRes i)
    have hnext : ∀ j, entry (Sntrup.foldLoop R fg (rounds + 1)) j = if i - n + 1 = j then
        R.freeze (R.widen (entry mid (i - n + 1)) + R.widen (entry mid i)) else entry mid j := by
      intro j
      rw [Sntrup.foldLoop, ← hcur, ← hi, foldPlace, ← hmid, entry_setIfInBounds]
      exact if_congr (by omega) rfl rfl
    have hmidI : entry mid i = entry fg i := by rw [hmidEntry, if_neg (by omega), hbig]
    refine ⟨fun j hj => ?_, fun j => ?_, fun j hj => ?_⟩
    · rw [hnext, if_neg (by omega), hmidEntry, if_neg (by omega), hhigh j hj]
    · rw [hnext]
      split_ifs
      · exact hsnd.1
      · exact hmidRes j
    · rw [hnext, folded_succ (by omega) _ hj, Int.cast_add, ← hlow j hj, ← hi,
        Int.cast_add]
      by_cases hj2 : i - n + 1 = j
      · rw [if_pos hj2, if_pos hj2, if_neg (by omega), hsnd.2, hj2, hmidI, hmidEntry,
          if_neg (by omega), Int.cast_zero, zero_add]
      · rw [if_neg hj2, if_neg hj2, hmidEntry, Int.cast_zero, add_zero]
        by_cases hj1 : i - n = j
        · rw [if_pos hj1, if_pos hj1, hfst.2, hj1, hbig]
        · rw [if_neg hj1, if_neg hj1, Int.cast_zero, add_zero]

/-- The coefficients of the result are the nearest residues of those of the product. -/
theorem coreMult (h : R.Lawful val sum m limit) (hlimit : (n : ℤ) * m < 2 * limit)
    (hlimit' : (m : ℤ) < limit) (hm : Odd m) {f : Vector α n} {g : Vector Int8 n}
    (hf : ∀ i, 2 * |val (entry f i)| < m) (hg : ∀ i, |smallInts g i| ≤ 1) {k : ℕ} (hk : k < n) :
    val (entry (coreMult R f g) k) =
      (mulMod n (fun i => val (entry f i)) (smallInts g) k).bmod m := by
  set F : ℕ → ℤ := fun i => val (entry f i) with hF
  have hbelow : ZeroFrom n F := fun i hi => by
    rw [hF]
    simp only [entry_of_le f hi, h.val_default]
  have hout : ∀ j, 2 * n - 1 ≤ j → val (entry (Sntrup.products R f g) j) = 0 := fun j hj => by
    rw [entry_of_le _ hj, h.val_default]
  have hpos : (0 : ℤ) < m := by
    obtain ⟨c, rfl⟩ := hm
    positivity
  have hfg : ∀ j, 2 * |val (entry (Sntrup.products R f g) j)| < m := by
    intro j
    by_cases hj : j < 2 * n - 1
    · rw [h.products hlimit hf hg hj]
      exact abs_bmod_lt _ hm
    · rw [hout j (not_lt.mp hj), abs_zero, mul_zero]
      exact hpos
  have hcast : ∀ j, (val (entry (Sntrup.products R f g) j) : ZMod m) =
      coeffProduct F (smallInts g) j := by
    intro j
    by_cases hj : j < 2 * n - 1
    · rw [h.products hlimit hf hg hj, cast_bmod]
    · rw [hout j (not_lt.mp hj), hbelow.coeffProduct (below_smallInts g) j (by omega)]
  obtain ⟨-, hres, hlow⟩ := h.foldLoop hlimit' hm hfg (n - 1) (by omega)
  rw [Sntrup.coreMult, entry_tabulate, if_pos hk]
  apply eq_bmod_of_cast (hres k)
  rw [hlow k hk, folded, mulMod]
  have htop : (if 2 * n - 1 - (n - 1) ≤ k + n ∧ k + n < 2 * n - 1 then
      val (entry (Sntrup.products R f g) (k + n)) else 0) =
      val (entry (Sntrup.products R f g) (k + n)) := by
    by_cases hlast : k + n < 2 * n - 1
    · rw [if_pos ⟨by omega, hlast⟩]
    · rw [if_neg fun h => hlast h.2, hout _ (by omega)]
  rw [htop]
  push_cast
  rw [hcast, hcast]
  by_cases hzero : k = 0
  · rw [if_neg (by omega), if_pos hzero]
  · rw [if_pos (by omega), if_neg hzero, hcast]

end Reduction.Lawful

/-! ### The byte forms -/

/-- `crypto_encode_pxint16`: two bytes a coefficient, the low one first. -/
def encodePxint16 {n : ℕ} (v : Vector Int16 n) : Vector UInt8 (2 * n) :=
  tabulate (2 * n) fun k =>
    let u := (entry v (k / 2)).toUInt16
    if k % 2 = 0 then u.toUInt8 else (u >>> 8).toUInt8

/-- `crypto_decode_pxint16`. -/
def decodePxint16 {n : ℕ} (s : Vector UInt8 (2 * n)) : Vector Int16 n :=
  tabulate n fun i =>
    let u0 := (entry s (2 * i)).toUInt16
    let u1 := (entry s (2 * i + 1)).toUInt16
    (u0 ||| (u1 <<< 8)).toInt16

/-- A word is put together from its bytes. -/
theorem halves_or (u : UInt16) : u.toUInt8.toUInt16 ||| ((u >>> 8).toUInt8.toUInt16 <<< 8) = u := by
  have hlt := u.toNat_lt
  have hlow : u.toNat % 256 < 2 ^ 8 := by omega
  apply UInt16.toNat_inj.mp
  simp only [UInt16.toNat_or, UInt16.toNat_shiftLeft, UInt16.toNat_shiftRight,
    UInt8.toNat_toUInt16, UInt16.toNat_toUInt8, UInt16.reduceToNat, Nat.reduceMod]
  rw [Nat.shiftRight_eq_div_pow, Nat.mod_eq_of_lt (a := _ <<< 8), Nat.or_comm,
    ← Nat.shiftLeft_add_eq_or_of_lt hlow, Nat.shiftLeft_eq]
  · omega
  · rw [Nat.shiftLeft_eq]
    omega

/-- The words of an array survive their encoding. -/
@[simp] theorem decodePxint16_encodePxint16 {n : ℕ} (v : Vector Int16 n) :
    decodePxint16 (encodePxint16 v) = v := by
  apply ext_entry
  intro i hi
  have hlow : entry (encodePxint16 v) (2 * i) = (entry v i).toUInt16.toUInt8 := by
    rw [encodePxint16, entry_tabulate, if_pos (by omega), if_pos (by omega),
      show 2 * i / 2 = i by omega]
  have hhigh : entry (encodePxint16 v) (2 * i + 1) = ((entry v i).toUInt16 >>> 8).toUInt8 := by
    rw [encodePxint16, entry_tabulate, if_pos (by omega), if_neg (by omega),
      show (2 * i + 1) / 2 = i by omega]
  rw [decodePxint16, entry_tabulate, if_pos hi, hlow, hhigh]
  exact congrArg UInt16.toInt16 (halves_or _)

/-! ### The functions -/

/-- `gi0 = gi & 1; gi0 - (gi & (gi0 << 1))`. -/
def smallBits (gi : Int8) : Int8 :=
  let gi0 := gi &&& 1
  gi0 - (gi &&& (gi0 <<< 1))

/-- `Reduction` modulo `q`: `int16` entries, `int32` sums. -/
def fqReduction : Reduction Int16 Int32 where
  product a b := a.toInt32 * b.toInt32
  widen := Int16.toInt32
  freeze := fqFreeze

/-- `Reduction` modulo 3: `int8` entries, `int16` sums. -/
def f3Reduction : Reduction Int8 Int16 where
  product a b := (a * b).toInt16
  widen := Int8.toInt16
  freeze := f3Freeze

/-- `crypto_core_mult`. -/
def cryptoCoreMult {n : ℕ} (inbytes : Vector UInt8 (2 * n)) (kbytes : Vector Int8 n) :
    Vector UInt8 (2 * n) :=
  let f : Vector Int16 n := decodePxint16 inbytes
  let f := tabulate n fun i => fqFreeze (entry f i).toInt32
  let g := tabulate n fun i => smallBits (entry kbytes i)
  encodePxint16 (coreMult fqReduction f g)

/-- `crypto_core_mult3`. -/
def cryptoCoreMult3 {n : ℕ} (inbytes kbytes : Vector Int8 n) : Vector Int8 n :=
  let f := tabulate n fun i => smallBits (entry inbytes i)
  let g := tabulate n fun i => smallBits (entry kbytes i)
  coreMult f3Reduction f g

/-- `crypto_core_scale3`, with `(q + 1) / 2 = 2296` and `(q - 1) / 2 = 2295`. -/
def cryptoCoreScale3 {n : ℕ} (inbytes : Vector UInt8 (2 * n)) : Vector UInt8 (2 * n) :=
  let f : Vector Int16 n := decodePxint16 inbytes
  encodePxint16 <| tabulate n fun i =>
    let x := entry f i
    let x := x * 3
    let x := x - 2296
    let x := x + ((4591 : Int16) &&& (x >>> 15))
    let x := x + ((4591 : Int16) &&& (x >>> 15))
    x - 2295

/-- `Rq_mult_small`. -/
def rqMultSmall {n : ℕ} (h : Vector Int16 n) (g : Vector Int8 n) : Vector Int16 n :=
  decodePxint16 (cryptoCoreMult (encodePxint16 h) g)

/-- `Rq_mult3`. -/
def rqMult3 {n : ℕ} (f : Vector Int16 n) : Vector Int16 n :=
  decodePxint16 (cryptoCoreScale3 (encodePxint16 f))

/-- `R3_mult`. -/
def r3Mult {n : ℕ} (f g : Vector Int8 n) : Vector Int8 n := cryptoCoreMult3 f g

/-- `R3_fromRq`, by `crypto_encode_pxfreeze3`. -/
def r3FromRq {n : ℕ} (r : Vector Int16 n) : Vector Int8 n :=
  tabulate n fun i => f3Freeze (entry r i)

/-- The three small coefficients. -/
theorem small_cases {x : Int8} (h : |x.toInt| ≤ 1) : x = -1 ∨ x = 0 ∨ x = 1 := by
  have h := abs_le.mp h
  rcases (show x.toInt = -1 ∨ x.toInt = 0 ∨ x.toInt = 1 by omega) with h | h | h
  · exact Or.inl (Int8.toInt_inj.mp h)
  · exact Or.inr (Or.inl (Int8.toInt_inj.mp h))
  · exact Or.inr (Or.inr (Int8.toInt_inj.mp h))

/-- A small coefficient is kept by its two bits. -/
theorem smallBits_small {x : Int8} (h : |x.toInt| ≤ 1) : smallBits x = x := by
  rcases small_cases h with rfl | rfl | rfl <;> rfl

/-- An array of small coefficients is kept. -/
theorem tabulate_smallBits {n : ℕ} {g : Vector Int8 n} (hg : ∀ i, |smallInts g i| ≤ 1) :
    tabulate n (fun i => smallBits (entry g i)) = g := by
  apply ext_entry
  intro i hi
  rw [entry_tabulate, if_pos hi, smallBits_small (hg i)]

/-- The words of `crypto_core_mult` compute modulo 4591. -/
theorem lawful_fqReduction : fqReduction.Lawful Int16.toInt Int32.toInt 4591 7000000 where
  val_default := rfl
  zero := rfl
  add {a b} h := by
    have h := abs_lt.mp h
    rw [Int32.toInt_add, bmod_word (by omega) (by omega)]
  product {a b} ha hb := by
    have hle : |a.toInt * b.toInt| ≤ |a.toInt| := by
      rw [abs_mul]
      exact mul_le_of_le_one_right (abs_nonneg _) hb
    have h := abs_le.mp hle
    rw [fqReduction, Int32.toInt_mul, Int16.toInt_toInt32, Int8.toInt_toInt32,
      bmod_word (by omega) (by omega)]
  widen a := Int16.toInt_toInt32 a
  freeze h := fqFreeze_toInt h

/-- The words of `crypto_core_mult3` compute modulo 3. -/
theorem lawful_f3Reduction : f3Reduction.Lawful Int8.toInt Int16.toInt 3 16384 where
  val_default := rfl
  zero := rfl
  add {a b} h := by
    have h := abs_lt.mp h
    rw [Int16.toInt_add, bmod_halfword (by omega) (by omega)]
  product {a b} ha hb := by
    have hle : |a.toInt * b.toInt| ≤ |a.toInt| := by
      rw [abs_mul]
      exact mul_le_of_le_one_right (abs_nonneg _) hb
    have h := abs_le.mp hle
    rw [f3Reduction, Int8.toInt_toInt16, Int8.toInt_mul, bmod_byte (by omega) (by omega)]
  widen a := Int8.toInt_toInt16 a
  freeze h := by
    have h := abs_lt.mp h
    exact f3Freeze_toInt (by omega) (by omega)

section Specifications

variable {n : ℕ}

/-- A residue lies within half of `q`. -/
theorem Residue.two_mul_lt {x : ℤ} (h : Residue x) : 2 * |x| < 4591 := by
  have h : |x| ≤ 2295 := h
  omega

/-- `Rq_mult_small` multiplies modulo `q` and `x ^ n - x - 1`. -/
theorem rqMultSmall_ints (hn : n ≤ 3000) {h : Vector Int16 n} {g : Vector Int8 n}
    (hh : ∀ i, Residue (fqInts h i)) (hg : ∀ i, |smallInts g i| ≤ 1) {k : ℕ} (hk : k < n) :
    fqInts (rqMultSmall h g) k = (mulMod n (fqInts h) (smallInts g) k).bmod 4591 := by
  have hfrozen : tabulate n (fun i => fqFreeze (entry h i).toInt32) = h := by
    apply ext_entry
    intro i hi
    have hres := (hh i).two_mul_lt
    rw [fqInts] at hres
    rw [entry_tabulate, if_pos hi]
    apply Int16.toInt_inj.mp
    rw [fqFreeze_toInt (by rw [Int16.toInt_toInt32]; omega), Int16.toInt_toInt32]
    exact (eq_bmod_of_cast (m := 4591) hres rfl).symm
  rw [rqMultSmall, cryptoCoreMult, decodePxint16_encodePxint16, decodePxint16_encodePxint16,
    hfrozen, tabulate_smallBits hg]
  exact lawful_fqReduction.coreMult (by push_cast; omega) (by norm_num) (by decide)
    (fun i => (hh i).two_mul_lt) hg hk

/-- `R3_mult` multiplies modulo 3 and `x ^ n - x - 1`. -/
theorem r3Mult_ints (hn : n ≤ 3000) {f g : Vector Int8 n} (hf : ∀ i, |smallInts f i| ≤ 1)
    (hg : ∀ i, |smallInts g i| ≤ 1) {k : ℕ} (hk : k < n) :
    smallInts (r3Mult f g) k = (mulMod n (smallInts f) (smallInts g) k).bmod 3 := by
  rw [r3Mult, cryptoCoreMult3, tabulate_smallBits hf, tabulate_smallBits hg]
  exact lawful_f3Reduction.coreMult (by push_cast; omega) (by norm_num) (by decide)
    (fun i => by have := hf i; rw [smallInts] at this; push_cast; omega) hg hk

/-- The sign mask of an `int16` word. -/
theorem and_signMask (x : Int16) :
    (4591 : Int16) &&& (x >>> 15) = if x.toInt < 0 then 4591 else 0 := by
  have hshift : x >>> 15 = if x.toInt < 0 then -1 else 0 := by
    apply Int16.toInt_inj.mp
    have hlt := x.toInt_lt
    have hge := x.le_toInt
    have hbits : (x >>> 15).toBitVec = x.toBitVec.sshiftRight 15 := rfl
    rw [← Int16.toInt_toBitVec, hbits, BitVec.toInt_sshiftRight, Int.shiftRight_eq_div_pow,
      Int16.toInt_toBitVec]
    split_ifs
    · change _ = -1
      omega
    · change _ = 0
      omega
  rw [hshift]
  split_ifs <;> rfl

/-- `q` added under the sign mask. -/
theorem toInt_add_signMask (x : Int16) :
    (x + ((4591 : Int16) &&& (x >>> 15))).toInt =
      if x.toInt < 0 then x.toInt + 4591 else x.toInt := by
  have hge := x.le_toInt
  rw [and_signMask]
  split_ifs
  · rw [Int16.toInt_add, show (4591 : Int16).toInt = 4591 from rfl,
      bmod_halfword (by omega) (by omega)]
  · rw [Int16.add_zero]

/-- `Rq_mult3` multiplies by 3. -/
theorem rqMult3_ints {f : Vector Int16 n} (hf : ∀ i, Residue (fqInts f i)) {k : ℕ} (hk : k < n) :
    fqInts (rqMult3 f) k = (3 * fqInts f k).bmod 4591 := by
  have hres := abs_le.mp (hf k)
  rw [rqMult3, cryptoCoreScale3, decodePxint16_encodePxint16, decodePxint16_encodePxint16, fqInts,
    entry_tabulate, if_pos hk]
  rw [fqInts] at hres ⊢
  generalize entry f k = x at hres ⊢
  have hsteps : ∀ u y z : Int16, u = x * (3 : Int16) - 2296 →
      y = u + ((4591 : Int16) &&& (u >>> 15)) → z = y + ((4591 : Int16) &&& (y >>> 15)) →
      (z - 2295).toInt = (3 * x.toInt).bmod 4591 := by
    intro u y z hu hy hz
    have htriple : u.toInt = 3 * x.toInt - 2296 := by
      rw [hu, Int16.toInt_sub, Int16.toInt_mul, show (3 : Int16).toInt = 3 from rfl,
        show (2296 : Int16).toInt = 2296 from rfl, bmod_halfword (x := x.toInt * 3) (by omega)
        (by omega), bmod_halfword (by omega) (by omega)]
      ring
    have hfst := toInt_add_signMask u
    have hsnd := toInt_add_signMask y
    rw [← hy] at hfst
    rw [← hz] at hsnd
    have hrange : 0 ≤ z.toInt ∧ z.toInt < 4591 ∧
        ∃ c : ℤ, z.toInt = 3 * x.toInt - 2296 + 4591 * c := by
      split_ifs at hfst hsnd
      · exact ⟨by omega, by omega, 2, by omega⟩
      · exact ⟨by omega, by omega, 1, by omega⟩
      · exact ⟨by omega, by omega, 1, by omega⟩
      · exact ⟨by omega, by omega, 0, by omega⟩
    obtain ⟨hlow, hhigh, c, hc⟩ := hrange
    rw [Int16.toInt_sub, show (2295 : Int16).toInt = 2295 from rfl,
      bmod_halfword (by omega) (by omega)]
    exact eq_bmod (k := 1 - c) (by push_cast; omega) (by omega) (by omega)
  exact hsteps _ _ _ rfl rfl rfl

/-- `R3_fromRq` reduces residues modulo 3. -/
theorem r3FromRq_ints {r : Vector Int16 n} (hr : ∀ i, Residue (fqInts r i)) {k : ℕ} (hk : k < n) :
    smallInts (r3FromRq r) k = (fqInts r k).bmod 3 := by
  have hres := abs_le.mp (hr k)
  rw [fqInts] at hres ⊢
  rw [r3FromRq, smallInts, entry_tabulate, if_pos hk, f3Freeze_toInt (by omega) (by omega)]

/-! ### As products in the quotient rings -/

/-- `Rq_mult_small` gives residues. -/
theorem residue_rqMultSmall (hn : n ≤ 3000) {h : Vector Int16 n} {g : Vector Int8 n}
    (hh : ∀ i, Residue (fqInts h i)) (hg : ∀ i, |smallInts g i| ≤ 1) (i : ℕ) :
    Residue (fqInts (rqMultSmall h g) i) := by
  by_cases hi : i < n
  · rw [rqMultSmall_ints hn hh hg hi]
    exact residue_bmod _
  · rw [below_fqInts _ i (not_lt.mp hi)]
    exact residue_zero

/-- The residues modulo 3 are small. -/
theorem small_bmod_three (x : ℤ) : |x.bmod 3| ≤ 1 := by
  have h := abs_bmod_lt x (m := 3) (by decide)
  push_cast at h
  omega

/-- `R3_mult` gives small coefficients. -/
theorem small_r3Mult (hn : n ≤ 3000) {f g : Vector Int8 n} (hf : ∀ i, |smallInts f i| ≤ 1)
    (hg : ∀ i, |smallInts g i| ≤ 1) (i : ℕ) : |smallInts (r3Mult f g) i| ≤ 1 := by
  by_cases hi : i < n
  · rw [r3Mult_ints hn hf hg hi]
    exact small_bmod_three _
  · rw [below_smallInts _ i (not_lt.mp hi), abs_zero]
    exact zero_le_one

/-- `Rq_mult3` gives residues. -/
theorem residue_rqMult3 {f : Vector Int16 n} (hf : ∀ i, Residue (fqInts f i)) (i : ℕ) :
    Residue (fqInts (rqMult3 f) i) := by
  by_cases hi : i < n
  · rw [rqMult3_ints hf hi]
    exact residue_bmod _
  · rw [below_fqInts _ i (not_lt.mp hi)]
    exact residue_zero

/-- `R3_fromRq` gives small coefficients. -/
theorem small_r3FromRq {r : Vector Int16 n} (hr : ∀ i, Residue (fqInts r i)) (i : ℕ) :
    |smallInts (r3FromRq r) i| ≤ 1 := by
  by_cases hi : i < n
  · rw [r3FromRq_ints hr hi]
    exact small_bmod_three _
  · rw [below_smallInts _ i (not_lt.mp hi), abs_zero]
    exact zero_le_one

/-- `Rq_mult_small` multiplies in the ring modulo `q`. -/
theorem value_rqMultSmall (hpos : 0 < n) (hn : n ≤ 3000) {h : Vector Int16 n} {g : Vector Int8 n}
    (hh : ∀ i, Residue (fqInts h i)) (hg : ∀ i, |smallInts g i| ≤ 1) :
    value (trinomialRoot 4591 n) n (fqInts (rqMultSmall h g)) =
      value (trinomialRoot 4591 n) n (fqInts h) *
        value (trinomialRoot 4591 n) n (smallInts g) := by
  rw [← value_mulMod hpos (below_fqInts h) (below_smallInts g) (trinomialRoot_pow 4591 n)]
  apply value_congr (m := 4591)
  intro i hi
  rw [rqMultSmall_ints hn hh hg hi, cast_bmod]

/-- `R3_mult` multiplies in the ring modulo 3. -/
theorem value_r3Mult (hpos : 0 < n) (hn : n ≤ 3000) {f g : Vector Int8 n}
    (hf : ∀ i, |smallInts f i| ≤ 1) (hg : ∀ i, |smallInts g i| ≤ 1) :
    value (trinomialRoot 3 n) n (smallInts (r3Mult f g)) =
      value (trinomialRoot 3 n) n (smallInts f) * value (trinomialRoot 3 n) n (smallInts g) := by
  rw [← value_mulMod hpos (below_smallInts f) (below_smallInts g) (trinomialRoot_pow 3 n)]
  apply value_congr (m := 3)
  intro i hi
  rw [r3Mult_ints hn hf hg hi, cast_bmod]

/-- `Rq_mult3` multiplies by three. -/
theorem value_rqMult3 {f : Vector Int16 n} (hf : ∀ i, Residue (fqInts f i)) :
    value (trinomialRoot 4591 n) n (fqInts (rqMult3 f)) =
      3 * value (trinomialRoot 4591 n) n (fqInts f) := by
  have hthree := value_mul_left (trinomialRoot 4591 n) n 3 (fqInts f)
  push_cast at hthree
  rw [← hthree]
  apply value_congr (m := 4591)
  intro i hi
  rw [rqMult3_ints hf hi, cast_bmod]

/-- Residues modulo `q` with one value are one array. -/
theorem ext_value_fq (hn : 1 < n) {u v : Vector Int16 n} (hu : ∀ i, Residue (fqInts u i))
    (hv : ∀ i, Residue (fqInts v i))
    (h : value (trinomialRoot 4591 n) n (fqInts u) = value (trinomialRoot 4591 n) n (fqInts v)) :
    u = v := by
  apply ext_entry
  intro i hi
  have hcoeff := modEq_of_value_eq (by norm_num) hn h hi
  have heq : fqInts u i = fqInts v i :=
    (eq_bmod_of_cast (hu i).two_mul_lt hcoeff).trans
      (eq_bmod_of_cast (hv i).two_mul_lt rfl).symm
  exact Int16.toInt_inj.mp heq

/-- Small polynomials with one value modulo 3 are one array. -/
theorem ext_value_small (hn : 1 < n) {u v : Vector Int8 n} (hu : ∀ i, |smallInts u i| ≤ 1)
    (hv : ∀ i, |smallInts v i| ≤ 1)
    (h : value (trinomialRoot 3 n) n (smallInts u) = value (trinomialRoot 3 n) n (smallInts v)) :
    u = v := by
  apply ext_entry
  intro i hi
  have hcoeff := modEq_of_value_eq (by norm_num) hn h hi
  have h1 := hu i
  have h2 := hv i
  have heq : smallInts u i = smallInts v i :=
    (eq_bmod_of_cast (m := 3) (by push_cast; omega) hcoeff).trans
      (eq_bmod_of_cast (m := 3) (by push_cast; omega) rfl).symm
  exact Int8.toInt_inj.mp heq

end Specifications

end SimpleGo.Sntrup
