import SimpleGo.Lib.Networks

/-!
# The constant-time sort

`crypto_sort_int32` runs a sorting network whose comparators are arranged for long inner loops.
The comparators of one cell follow each other, and the loop over the distance `q` stops inside
a block and resumes there with the next distance. `i` is the block, `j` the next cell; the
distances `p`, `q` and `r` are powers of two and are kept as exponents. Executed, the loops are
Batcher's merge exchange (`sortLoops_eq`), so the function sorts.

The counters `i`, `p`, `q` and `r` are 32-bit integers in the source and natural numbers here;
`counters_fit` bounds them for less than `2 ^ 30` words.
-/

namespace SimpleGo.Sntrup

open Lib

/-! ### `int32_MINMAX` -/

/-- `int32_MINMAX`: `c` becomes all ones exactly when `b < a`. -/
def int32MinMax (a b : Int32) : Int32 × Int32 :=
  let ab := b ^^^ a
  let c := (b.toInt64 - a.toInt64).toInt32
  let c := c ^^^ (ab &&& (c ^^^ b))
  let c := c >>> 31
  let c := c &&& ab
  (a ^^^ c, b ^^^ c)

/-- The sign bit that `int32_MINMAX` computes. -/
theorem msb_minMax (a b : BitVec 32) :
    ((b - a) ^^^ ((b ^^^ a) &&& ((b - a) ^^^ b))).msb = decide (b.toInt < a.toInt) := by
  have ha := a.toInt_lt
  have ha' := a.le_toInt
  have hb := b.toInt_lt
  have hb' := b.le_toInt
  have hc := (b - a).toInt_lt
  have hc' := (b - a).le_toInt
  have hsub : (b - a).toInt = b.toInt - a.toInt ∨ (b - a).toInt = b.toInt - a.toInt - 2 ^ 32 ∨
      (b - a).toInt = b.toInt - a.toInt + 2 ^ 32 := by
    rw [BitVec.toInt_sub, Int.bmod_def]
    split_ifs <;> omega
  rw [BitVec.msb_xor, BitVec.msb_and, BitVec.msb_xor, BitVec.msb_xor]
  simp only [BitVec.msb_eq_toInt]
  generalize (b - a).toInt = c at *
  generalize a.toInt = a at *
  generalize b.toInt = b at *
  by_cases h1 : a < 0 <;> by_cases h2 : b < 0 <;> by_cases h3 : c < 0 <;>
    simp only [h1, h2, h3, decide_true, decide_false, Bool.xor_false, Bool.xor_true,
      Bool.not_false, Bool.not_true, Bool.and_true, Bool.and_false] <;>
    symm <;> simp only [decide_eq_true_eq, decide_eq_false_iff_not, not_lt] <;> omega

/-- A shift by 31 spreads the sign bit. -/
theorem sshiftRight_31 (c : BitVec 32) : c.sshiftRight 31 = if c.msb then -1 else 0 := by
  apply BitVec.eq_of_toInt_eq
  have h := c.toInt_lt
  have h' := c.le_toInt
  rw [BitVec.toInt_sshiftRight, BitVec.msb_eq_toInt, Int.shiftRight_eq_div_pow]
  by_cases hneg : c.toInt < 0
  · rw [if_pos (decide_eq_true hneg)]
    change _ = -1
    omega
  · rw [if_neg (by simpa using hneg)]
    change _ = 0
    omega

/-- The macro keeps the order or exchanges. -/
theorem int32MinMax_eq (a b : Int32) :
    int32MinMax a b = if b.toInt < a.toInt then (b, a) else (a, b) := by
  have hmask : (((b - a) ^^^ ((b ^^^ a) &&& ((b - a) ^^^ b))) >>> (31 : Int32)).toBitVec =
      if decide (b.toInt < a.toInt) then -1 else 0 := by
    have h := sshiftRight_31 (((b - a) ^^^ ((b ^^^ a) &&& ((b - a) ^^^ b))).toBitVec)
    rwa [show (((b - a) ^^^ ((b ^^^ a) &&& ((b - a) ^^^ b))).toBitVec).msb =
      decide (b.toInt < a.toInt) from msb_minMax a.toBitVec b.toBitVec] at h
  simp only [int32MinMax, Int64.toInt32_sub, Int32.toInt32_toInt64]
  by_cases hlt : b.toInt < a.toInt
  · rw [if_pos hlt]
    rw [if_pos (decide_eq_true hlt)] at hmask
    have hones : ((b - a) ^^^ ((b ^^^ a) &&& ((b - a) ^^^ b))) >>> (31 : Int32) = -1 :=
      Int32.toBitVec_inj.mp hmask
    rw [hones, Int32.neg_one_and, Int32.xor_comm b a, ← Int32.xor_assoc, Int32.xor_self,
      Int32.zero_xor, Int32.xor_comm a b, ← Int32.xor_assoc, Int32.xor_self, Int32.zero_xor]
  · rw [if_neg hlt]
    rw [if_neg (by simpa using hlt)] at hmask
    have hzero : ((b - a) ^^^ ((b ^^^ a) &&& ((b - a) ^^^ b))) >>> (31 : Int32) = 0 :=
      Int32.toBitVec_inj.mp hmask
    rw [hzero, Int32.zero_and, Int32.xor_zero, Int32.xor_zero]

/-- The macro keeps its two words. -/
theorem isExchange_int32MinMax : IsExchange int32MinMax := by
  intro a b
  rw [int32MinMax_eq]
  split_ifs
  · exact Or.inr rfl
  · exact Or.inl rfl

/-- On the values of the words the macro is the comparison of the integers. -/
theorem minMax_toInt (a b : Int32) :
    minMax a.toInt b.toInt = ((int32MinMax a b).1.toInt, (int32MinMax a b).2.toInt) := by
  rw [int32MinMax_eq, minMax]
  split_ifs with h
  · rw [min_eq_right h.le, max_eq_left h.le]
  · rw [min_eq_left (not_lt.mp h), max_eq_right (not_lt.mp h)]

/-! ### The loops -/

section Loops

variable {α : Type*} (minmax : Comparison α)

/-- `while (top < n - top) top += top`, with `top = 2 ^ t`. -/
def topLoop (n : ℕ) : (fuel : ℕ) → (t : ℕ) → ℕ
  | 0, t => t
  | fuel + 1, t => if 2 ^ t < n - 2 ^ t then topLoop n fuel (t + 1) else t

/-- The exponent of `top`. -/
def topExponent (n : ℕ) : ℕ := topLoop n n 0

/-- `for (j = lo; j < lo + count; ++j) int32_MINMAX(x[j], x[j + p])`. -/
def pairLoop (p lo count : ℕ) (x : ℕ → α) : ℕ → α :=
  (List.range' lo count).foldl (fun x j => compareAt minmax x (j, j + p)) x

/-- `while (i + 2 * p <= n)`: the full blocks of pairs. -/
def pairBlocks (n p : ℕ) : (fuel i : ℕ) → (ℕ → α) → ℕ × (ℕ → α)
  | 0, i, x => (i, x)
  | fuel + 1, i, x =>
    if i + 2 * p ≤ n then pairBlocks n p fuel (i + 2 * p) (pairLoop minmax p i p x) else (i, x)

/-- The comparators at distance `p`. -/
def pairPhase (n p : ℕ) (x : ℕ → α) : ℕ → α :=
  let (i, x) := pairBlocks minmax n p n 0 x
  pairLoop minmax p i (n - p - i) x

/-- `a = x[j + p]; for (r = q; r > p; r >>= 1) int32_MINMAX(a, x[j + r]); x[j + p] = a`. -/
def mergeCell (p : ℕ) (rs : List ℕ) (j : ℕ) (x : ℕ → α) : ℕ → α :=
  let (a, x) := rs.foldl (fun (a, x) r =>
    ((minmax a (x (j + r))).1, Function.update x (j + r) (minmax a (x (j + r))).2)) (x (j + p), x)
  Function.update x (j + p) a

/-- `for (j = lo; j < lo + count; ++j)` over `mergeCell`. -/
def mergeLoop (p : ℕ) (rs : List ℕ) (lo count : ℕ) (x : ℕ → α) : ℕ → α :=
  (List.range' lo count).foldl (fun x j => mergeCell minmax p rs j x) x

/-- The loop that finishes block `i`; the flag is the jump to `done`. -/
def resume (n p q : ℕ) (rs : List ℕ) (i : ℕ) : (fuel j : ℕ) → (ℕ → α) → Bool × ℕ × ℕ × (ℕ → α)
  | 0, j, x => (true, i, j, x)
  | fuel + 1, j, x =>
    if j = n - q then (true, i, j, x)
    else if j + 1 = i + p then (false, i + 2 * p, j + 1, mergeCell minmax p rs j x)
    else resume n p q rs i fuel (j + 1) (mergeCell minmax p rs j x)

/-- `while (i + p <= n - q)`: the full blocks. -/
def mergeBlocks (n p q : ℕ) (rs : List ℕ) : (fuel i : ℕ) → (ℕ → α) → ℕ × (ℕ → α)
  | 0, i, x => (i, x)
  | fuel + 1, i, x =>
    if i + p ≤ n - q then mergeBlocks n p q rs fuel (i + 2 * p) (mergeLoop minmax p rs i p x)
    else (i, x)

/-- The body of the loop over `q = 2 ^ b`, with `p = 2 ^ k`. -/
def mergeRound (n k : ℕ) (s : ℕ × ℕ × (ℕ → α)) (b : ℕ) : ℕ × ℕ × (ℕ → α) :=
  let (i, j, x) := s
  let p := 2 ^ k
  let q := 2 ^ b
  let rs := (descending k b).map (2 ^ ·)
  let (done, i, j, x) :=
    if j ≠ i then resume minmax n p q rs i p j x else (false, i, j, x)
  if done then (i, j, x)
  else
    let (i, x) := mergeBlocks minmax n p q rs n i x
    (i, max i (n - q), mergeLoop minmax p rs i (n - q - i) x)

/-- The body of the loop over `p = 2 ^ k`. -/
def sortPhase (n t k : ℕ) (x : ℕ → α) : ℕ → α :=
  ((descending k t).foldl (mergeRound minmax n k) (0, 0, pairPhase minmax n (2 ^ k) x)).2.2

/-- `for (p = top; p >= 1; p >>= 1)`, from `p = 2 ^ (k - 1)` on. -/
def sortPhases (n t : ℕ) : ℕ → (ℕ → α) → (ℕ → α)
  | 0, x => x
  | k + 1, x => sortPhases n t k (sortPhase minmax n t k x)

/-- The loops of `crypto_sort_int32` for any comparison. -/
def sortLoops (n : ℕ) (x : ℕ → α) : ℕ → α :=
  sortPhases minmax n (topExponent n) (topExponent n + 1) x

end Loops

/-- `crypto_sort_int32(x, n)`. -/
def cryptoSortInt32 (x : ℕ → Int32) (n : ℕ) : ℕ → Int32 := sortLoops int32MinMax n x

/-- `crypto_sort_uint32(x, n)`: the sign bit of every word is flipped around the sort. -/
def cryptoSortUint32 (x : ℕ → UInt32) (n : ℕ) : ℕ → UInt32 :=
  let x := fun j => if j < n then x j ^^^ 0x80000000 else x j
  let x := fun j => (cryptoSortInt32 (fun j => (x j).toInt32) n j).toUInt32
  fun j => if j < n then x j ^^^ 0x80000000 else x j

/-! ### The loops run merge exchange -/

section Network

variable {α : Type*} {minmax : Comparison α}

/-- The cells below `m` in the lower halves of their blocks. -/
def lowCells (k m : ℕ) : List ℕ := (List.range m).filter fun j => j % 2 ^ (k + 1) < 2 ^ k

/-- The chains belong to the low cells. -/
theorem chains_eq (n k t m : ℕ) : chains n k t m = (lowCells k m).flatMap (chain n k t) := rfl

/-- A power of two is twice the one before. -/
private theorem two_pow_double (k : ℕ) : 2 ^ (k + 1) = 2 ^ k + 2 ^ k := by
  rw [Nat.pow_succ]
  omega

/-- The low cells up to a point of a block. -/
theorem lowCells_add {k i c : ℕ} (hi : i % 2 ^ (k + 1) = 0) (hc : c ≤ 2 ^ (k + 1)) :
    lowCells k (i + c) = lowCells k i ++ List.range' i (min c (2 ^ k)) := by
  induction c with
  | zero => simp
  | succ c ih =>
    have hmod : (i + c) % 2 ^ (k + 1) = c := by
      rw [Nat.add_mod, hi, Nat.zero_add, Nat.mod_mod, Nat.mod_eq_of_lt (by omega)]
    rw [← Nat.add_assoc, lowCells, List.range_succ, List.filter_append, ← lowCells, ih (by omega),
      List.append_assoc]
    congr 1
    by_cases hlow : c < 2 ^ k
    · simp only [List.filter_cons, hmod, hlow, decide_true, if_true, List.filter_nil]
      rw [Nat.min_eq_left hlow.le, Nat.min_eq_left hlow, List.range'_concat, Nat.one_mul]
    · simp only [List.filter_cons, hmod, hlow, decide_false, Bool.false_eq_true, if_false,
        List.filter_nil]
      rw [List.append_nil, Nat.min_eq_right (by omega), Nat.min_eq_right (by omega)]

/-- When `top` stops, twice its value reaches `n`. -/
theorem le_topLoop {n : ℕ} (fuel t : ℕ) (hfuel : n ≤ fuel + 2 ^ t) :
    n ≤ 2 ^ (topLoop n fuel t + 1) := by
  induction fuel generalizing t with
  | zero =>
    rw [topLoop, two_pow_double]
    omega
  | succ fuel ih =>
    rw [topLoop]
    have hpos : 0 < 2 ^ t := Nat.two_pow_pos t
    have hdouble := two_pow_double t
    split_ifs with h
    · exact ih (t + 1) (by omega)
    · omega

/-- `top` stays below `n`. -/
theorem topLoop_lt {n : ℕ} (fuel t : ℕ) (h : 2 ^ t < n) : 2 ^ topLoop n fuel t < n := by
  induction fuel generalizing t with
  | zero => exact h
  | succ fuel ih =>
    rw [topLoop]
    split_ifs with hlt
    · apply ih
      rw [two_pow_double]
      omega
    · exact h

/-- The largest distance lies inside the array. -/
theorem topExponent_lt {n : ℕ} (hn : 2 ≤ n) : 2 ^ topExponent n < n :=
  topLoop_lt n 0 (by omega)

/-- Block starts are at most `n`; with twice the largest distance they are 32-bit integers. For
`2 ^ 30` words, which the source still allows, `i + 2 * p` is `2 ^ 31` after the first block. -/
theorem counters_fit {n : ℕ} (h2 : 2 ≤ n) (hn : n < 2 ^ 30) :
    n + 2 * 2 ^ topExponent n < 2 ^ 31 := by
  have htop : topExponent n < 30 :=
    (Nat.pow_lt_pow_iff_right (by decide)).mp ((topExponent_lt h2).trans hn)
  have hpow : 2 ^ topExponent n ≤ 2 ^ 29 := Nat.pow_le_pow_right (by decide) (by omega)
  omega

/-- The largest distance covers half of the array. -/
theorem le_topExponent (n : ℕ) : n ≤ 2 ^ (topExponent n + 1) :=
  le_topLoop n 0 (Nat.le_add_right _ _)

/-- The loop over pairs runs their comparators. -/
theorem pairLoop_eq (p lo count : ℕ) (x : ℕ → α) :
    pairLoop minmax p lo count x =
      runNetwork minmax ((List.range' lo count).map fun j => (j, j + p)) x := by
  rw [pairLoop, runNetwork, List.foldl_map]

variable (minmax) in
/-- The full blocks of pairs. -/
theorem pairBlocks_spec {n k : ℕ} (x : ℕ → α) (fuel i : ℕ) (hi : i % 2 ^ (k + 1) = 0)
    (hin : i ≤ n) (hfuel : n < i + fuel + 2 ^ (k + 1)) :
    ∃ i', i' % 2 ^ (k + 1) = 0 ∧ i' ≤ n ∧ n < i' + 2 ^ (k + 1) ∧
      pairBlocks minmax n (2 ^ k) fuel i
          (runNetwork minmax ((lowCells k i).map fun j => (j, j + 2 ^ k)) x) =
        (i', runNetwork minmax ((lowCells k i').map fun j => (j, j + 2 ^ k)) x) := by
  have hdouble := two_pow_double k
  have hpos : 0 < 2 ^ k := Nat.two_pow_pos k
  induction fuel generalizing i with
  | zero => exact ⟨i, hi, hin, by omega, rfl⟩
  | succ fuel ih =>
    rw [pairBlocks]
    split_ifs with hle
    · have hblock := lowCells_add hi (le_refl (2 ^ (k + 1)))
      rw [Nat.min_eq_right (by omega)] at hblock
      rw [pairLoop_eq, ← runNetwork_append, ← List.map_append, ← hblock,
        show i + 2 * 2 ^ k = i + 2 ^ (k + 1) by omega]
      exact ih (i + 2 ^ (k + 1)) (by rw [Nat.add_mod_right, hi]) (by omega) (by omega)
    · exact ⟨i, hi, hin, by omega, rfl⟩

/-- The comparators at distance `2 ^ k` are those of the low cells that have a partner. -/
theorem adjacent_eq (n k : ℕ) :
    adjacent n k = (lowCells k (n - 2 ^ k)).map fun j => (j, j + 2 ^ k) := by
  have hrange : List.range n =
      List.range (n - 2 ^ k) ++ (List.range (n - (n - 2 ^ k))).map (n - 2 ^ k + ·) := by
    rw [← List.range_add, Nat.add_sub_cancel' (Nat.sub_le _ _)]
  rw [adjacent, lowCells]
  congr 1
  rw [hrange, List.filter_append]
  have hlast : (List.map (fun x => n - 2 ^ k + x) (List.range (n - (n - 2 ^ k)))).filter
      (fun j => decide (j % 2 ^ (k + 1) < 2 ^ k ∧ j + 2 ^ k < n)) = [] := by
    rw [List.filter_eq_nil_iff]
    intro j hj
    obtain ⟨c, -, rfl⟩ := List.mem_map.mp hj
    simp only [decide_eq_true_eq]
    omega
  rw [hlast, List.append_nil]
  apply List.filter_congr
  intro j hj
  have hj := List.mem_range.mp hj
  exact decide_eq_decide.mpr ⟨fun h => h.1, fun h => ⟨h, by omega⟩⟩

/-- The blocks and the rest are all pairs at distance `2 ^ k`. -/
theorem pairPhase_eq (n k : ℕ) (x : ℕ → α) :
    pairPhase minmax n (2 ^ k) x = runNetwork minmax (adjacent n k) x := by
  have hdouble := two_pow_double k
  have hpos : 0 < 2 ^ k := Nat.two_pow_pos k
  obtain ⟨i, hi, hin, hni, hblocks⟩ := pairBlocks_spec minmax (n := n) (k := k) x n 0
    (Nat.zero_mod _) (Nat.zero_le _) (by omega)
  rw [show lowCells k 0 = [] from rfl, List.map_nil, runNetwork_nil] at hblocks
  simp only [pairPhase, hblocks]
  rw [pairLoop_eq, ← runNetwork_append, ← List.map_append, adjacent_eq]
  by_cases hle : i ≤ n - 2 ^ k
  · have hlow := lowCells_add hi (c := n - 2 ^ k - i) (by omega)
    rw [Nat.min_eq_left (by omega), Nat.add_sub_cancel' hle] at hlow
    rw [hlow]
  · -- the last block has no low cell that reaches `n - p`
    have hge : 2 ^ (k + 1) ≤ i :=
      Nat.le_of_dvd (by omega) (Nat.dvd_of_mod_eq_zero hi)
    have hprev : (i - 2 ^ (k + 1)) % 2 ^ (k + 1) = 0 := by rw [← Nat.mod_eq_sub_mod hge, hi]
    have hfull := lowCells_add hprev (le_refl (2 ^ (k + 1)))
    have hpart := lowCells_add hprev (c := n - 2 ^ k - (i - 2 ^ (k + 1))) (by omega)
    rw [Nat.min_eq_right (by omega), Nat.sub_add_cancel hge] at hfull
    rw [Nat.min_eq_right (by omega), show i - 2 ^ (k + 1) + (n - 2 ^ k - (i - 2 ^ (k + 1))) =
      n - 2 ^ k by omega] at hpart
    rw [show n - 2 ^ k - i = 0 by omega, List.range'_zero, List.append_nil, hfull, hpart]

/-- The local copy of a cell does not change what its comparators do. -/
theorem mergeCell_eq {p : ℕ} {rs : List ℕ} (hrs : ∀ r ∈ rs, r ≠ p) (j : ℕ) (x : ℕ → α) :
    mergeCell minmax p rs j x = runNetwork minmax (rs.map fun r => (j + p, j + r)) x := by
  have hcopy : ∀ a (x : ℕ → α),
      runNetwork minmax (rs.map fun r => (j + p, j + r)) (Function.update x (j + p) a) =
        Function.update (rs.foldl (fun (s : α × (ℕ → α)) r =>
          ((minmax s.1 (s.2 (j + r))).1,
            Function.update s.2 (j + r) (minmax s.1 (s.2 (j + r))).2)) (a, x)).2 (j + p)
          (rs.foldl (fun (s : α × (ℕ → α)) r =>
            ((minmax s.1 (s.2 (j + r))).1,
              Function.update s.2 (j + r) (minmax s.1 (s.2 (j + r))).2)) (a, x)).1 := by
    induction rs with
    | nil => exact fun _ _ => rfl
    | cons r rs ih =>
      intro a x
      have hr : j + r ≠ j + p := fun h => hrs r List.mem_cons_self (by omega)
      rw [List.map_cons, runNetwork_cons, List.foldl_cons,
        ← ih (fun r hr => hrs r (List.mem_cons_of_mem _ hr))]
      congr 1
      simp only [compareAt, Function.update_self, Function.update_of_ne hr, Function.update_idem]
      rw [Function.update_comm hr]
  have hx := hcopy (x (j + p)) x
  rw [Function.update_eq_self] at hx
  exact hx.symm

/-- From distance `2 ^ b` on: the larger distances leave the array. -/
def Far (n t b j : ℕ) : Prop := ∀ b', b < b' → b' ≤ t → n ≤ j + 2 ^ b'

/-- A later cell has no more distances inside the array. -/
theorem Far.mono {n t b j j' : ℕ} (h : Far n t b j) (hj : j ≤ j') : Far n t b j' :=
  fun b' hb hle => (h b' hb hle).trans (by omega)

/-- A chain that starts at the first distance that stays in the array. -/
theorem chain_eq {n k t b j : ℕ} (hb : k ≤ b) (hbt : b ≤ t) (hfar : Far n t b j)
    (hn : j + 2 ^ b < n) :
    chain n k t j = ((descending k b).map (2 ^ ·)).map fun r => (j + 2 ^ k, j + r) := by
  have hsplit : descending k t = (List.range' (b + 1) (t - b)).reverse ++ descending k b := by
    rw [descending, descending, ← List.reverse_append, show b + 1 = k + 1 + (b - k) by omega,
      List.range'_append_1, show b - k + (t - b) = t - k by omega]
  have hout : (List.range' (b + 1) (t - b)).reverse.filter (fun b => decide (j + 2 ^ b < n)) =
      [] := by
    rw [List.filter_eq_nil_iff]
    intro b' hb'
    have hb' := List.mem_range'_1.mp (List.mem_reverse.mp hb')
    have := hfar b' (by omega) (by omega)
    simp only [decide_eq_true_eq]
    omega
  have hin : (descending k b).filter (fun b => decide (j + 2 ^ b < n)) = descending k b := by
    rw [List.filter_eq_self]
    intro b' hb'
    have hpow : 2 ^ b' ≤ 2 ^ b := Nat.pow_le_pow_right (by decide) (mem_descending.mp hb').2
    exact decide_eq_true (by omega)
  rw [chain, hsplit, List.filter_append, hout, List.nil_append, hin, List.map_map]
  rfl

/-- One cell of round `b`. -/
theorem mergeCell_chain {n k t b j : ℕ} (hb : k ≤ b) (hbt : b ≤ t) (hfar : Far n t b j)
    (hn : j + 2 ^ b < n) (x : ℕ → α) :
    mergeCell minmax (2 ^ k) ((descending k b).map (2 ^ ·)) j x =
      runNetwork minmax (chain n k t j) x := by
  rw [chain_eq hb hbt hfar hn, mergeCell_eq]
  intro r hr
  obtain ⟨b', hb', rfl⟩ := List.mem_map.mp hr
  have hpow : 2 ^ k < 2 ^ b' := Nat.pow_lt_pow_right (by decide) (mem_descending.mp hb').1
  omega

variable (minmax) in
/-- Consecutive cells of a block in round `b`. -/
theorem mergeLoop_chains {n k t b i j m : ℕ} (hb : k ≤ b) (hbt : b ≤ t) (hi : i % 2 ^ (k + 1) = 0)
    (hij : i ≤ j) (hcount : j + m ≤ i + 2 ^ k) (hfar : Far n t b j)
    (hn : j + m ≤ n - 2 ^ b) (x : ℕ → α) :
    mergeLoop minmax (2 ^ k) ((descending k b).map (2 ^ ·)) j m
        (runNetwork minmax (chains n k t j) x) =
      runNetwork minmax (chains n k t (j + m)) x := by
  have hdouble := two_pow_double k
  induction m with
  | zero => rfl
  | succ m ih =>
    have hlow : lowCells k (j + (m + 1)) = lowCells k (j + m) ++ [j + m] := by
      obtain ⟨c, rfl⟩ := Nat.exists_eq_add_of_le hij
      have hmod : (i + c + m) % 2 ^ (k + 1) < 2 ^ k := by
        rw [Nat.add_assoc, Nat.add_mod, hi, Nat.zero_add, Nat.mod_mod, Nat.mod_eq_of_lt (by omega)]
        omega
      rw [← Nat.add_assoc, lowCells, List.range_succ, List.filter_append, ← lowCells]
      simp only [List.filter_cons, hmod, decide_true, if_true, List.filter_nil]
    have hloop : mergeLoop minmax (2 ^ k) ((descending k b).map (2 ^ ·)) j (m + 1)
          (runNetwork minmax (chains n k t j) x) =
        mergeCell minmax (2 ^ k) ((descending k b).map (2 ^ ·)) (j + m)
          (mergeLoop minmax (2 ^ k) ((descending k b).map (2 ^ ·)) j m
            (runNetwork minmax (chains n k t j) x)) := by
      rw [mergeLoop, List.range'_concat, List.foldl_append, Nat.one_mul]
      rfl
    rw [hloop, ih (by omega) (by omega), mergeCell_chain hb hbt (hfar.mono (by omega)) (by omega),
      chains_eq, chains_eq, hlow, List.flatMap_append, runNetwork_append, List.flatMap_singleton]

/-- The high half of a block has no chain. -/
theorem chains_block {n k t i c : ℕ} (hi : i % 2 ^ (k + 1) = 0) (hc : 2 ^ k ≤ c)
    (hc' : c ≤ 2 ^ (k + 1)) : chains n k t (i + c) = chains n k t (i + 2 ^ k) := by
  have hdouble := two_pow_double k
  rw [chains_eq, chains_eq, lowCells_add hi hc', lowCells_add hi (by omega), Nat.min_eq_right hc,
    Nat.min_self]

variable (minmax) in
/-- The block in which round `b` starts is finished, or the round ends in it. -/
theorem resume_spec {n k t b i : ℕ} (hb : k ≤ b) (hbt : b ≤ t) (hi : i % 2 ^ (k + 1) = 0)
    (x : ℕ → α) (fuel j : ℕ) (hij : i ≤ j) (hj : j < i + 2 ^ k) (hfuel : i + 2 ^ k ≤ j + fuel)
    (hfar : Far n t b j) (hjn : j ≤ n - 2 ^ b) :
    (resume minmax n (2 ^ k) (2 ^ b) ((descending k b).map (2 ^ ·)) i fuel j
        (runNetwork minmax (chains n k t j) x) =
          (true, i, n - 2 ^ b, runNetwork minmax (chains n k t (n - 2 ^ b)) x) ∧
        n - 2 ^ b < i + 2 ^ k ∧ i ≤ n - 2 ^ b) ∨
      (resume minmax n (2 ^ k) (2 ^ b) ((descending k b).map (2 ^ ·)) i fuel j
        (runNetwork minmax (chains n k t j) x) =
          (false, i + 2 ^ (k + 1), i + 2 ^ k,
            runNetwork minmax (chains n k t (i + 2 ^ (k + 1))) x)) := by
  have hdouble := two_pow_double k
  induction fuel generalizing j with
  | zero => omega
  | succ fuel ih =>
    rw [resume]
    by_cases hend : j = n - 2 ^ b
    · rw [if_pos hend]
      subst hend
      exact Or.inl ⟨rfl, hj, hij⟩
    · have hcell := mergeLoop_chains minmax hb hbt hi (m := 1) hij (by omega) hfar
        (by omega) x
      rw [mergeLoop, List.range'_one, List.foldl_cons, List.foldl_nil] at hcell
      rw [if_neg hend, hcell]
      by_cases hblock : j + 1 = i + 2 ^ k
      · rw [if_pos hblock, hblock, ← chains_block hi (le_of_lt (Nat.pow_lt_pow_right (by decide)
          (Nat.lt_succ_self k))) le_rfl, show i + 2 * 2 ^ k = i + 2 ^ (k + 1) by omega]
        exact Or.inr rfl
      · rw [if_neg hblock]
        exact ih (j + 1) (by omega) (by omega) (by omega) (hfar.mono (by omega)) (by omega)

variable (minmax) in
/-- The full blocks of round `b`. -/
theorem mergeBlocks_spec {n k t b : ℕ} (hb : k ≤ b) (hbt : b ≤ t) (x : ℕ → α) (fuel i : ℕ)
    (hi : i % 2 ^ (k + 1) = 0) (hfuel : n < i + fuel + 2 ^ k) (hfar : Far n t b i) :
    ∃ i', i' % 2 ^ (k + 1) = 0 ∧ i ≤ i' ∧ n - 2 ^ b < i' + 2 ^ k ∧
      mergeBlocks minmax n (2 ^ k) (2 ^ b) ((descending k b).map (2 ^ ·)) fuel i
          (runNetwork minmax (chains n k t i) x) =
        (i', runNetwork minmax (chains n k t i') x) := by
  have hdouble := two_pow_double k
  have hpos : 0 < 2 ^ k := Nat.two_pow_pos k
  have hsub := Nat.sub_le n (2 ^ b)
  induction fuel generalizing i with
  | zero => exact ⟨i, hi, le_rfl, by omega, rfl⟩
  | succ fuel ih =>
    rw [mergeBlocks]
    split_ifs with hle
    · rw [mergeLoop_chains minmax hb hbt hi le_rfl le_rfl hfar hle,
        ← chains_block hi (show 2 ^ k ≤ 2 ^ (k + 1) by omega) le_rfl,
        show i + 2 * 2 ^ k = i + 2 ^ (k + 1) by omega]
      obtain ⟨i', hi', hle', h⟩ := ih (i + 2 ^ (k + 1)) (by rw [Nat.add_mod_right, hi]) (by omega)
        (hfar.mono (by omega))
      exact ⟨i', hi', by omega, h⟩
    · exact ⟨i, hi, le_rfl, by omega, rfl⟩

/-- The state between two rounds: block `i`, and all chains of the cells below `j` done. -/
structure RoundState (minmax : Comparison α) (n k t b : ℕ) (x : ℕ → α)
    (s : ℕ × ℕ × (ℕ → α)) : Prop where
  block : s.1 % 2 ^ (k + 1) = 0
  le : s.1 ≤ s.2.1
  lt : s.2.1 < s.1 + 2 ^ k
  far : Far n t b s.2.1
  inside : s.2.1 ≠ s.1 → s.2.1 ≤ n - 2 ^ b
  done : s.2.2 = runNetwork minmax (chains n k t s.2.1) x

/-- One round. -/
theorem RoundState.round {n k t b : ℕ} {x : ℕ → α} {s : ℕ × ℕ × (ℕ → α)} (hb : k < b)
    (hbt : b ≤ t) (h : RoundState minmax n k t b x s) :
    RoundState minmax n k t (b - 1) x (mergeRound minmax n k s b) := by
  obtain ⟨i, j, y⟩ := s
  obtain ⟨hi, hij, hj, hfar, hinside, hy⟩ := h
  dsimp only at hi hij hj hfar hinside hy
  subst hy
  have hdouble := two_pow_double k
  have hpos : 0 < 2 ^ k := Nat.two_pow_pos k
  have hfar' : ∀ j', n - 2 ^ b ≤ j' → Far n t (b - 1) j' := by
    intro j' hj' b' hb' hle
    have hpow : 2 ^ b ≤ 2 ^ b' := Nat.pow_le_pow_right (by decide) (by omega)
    omega
  have hsmall : n - 2 ^ b ≤ n - 2 ^ (b - 1) := by
    have hpow : 2 ^ (b - 1) ≤ 2 ^ b := Nat.pow_le_pow_right (by decide) (by omega)
    omega
  -- the full blocks and the last one, from a block boundary on
  have hrest : ∀ i', i' % 2 ^ (k + 1) = 0 → Far n t b i' →
      RoundState minmax n k t (b - 1) x
        (let r := mergeBlocks minmax n (2 ^ k) (2 ^ b) ((descending k b).map (2 ^ ·)) n i'
          (runNetwork minmax (chains n k t i') x)
        (r.1, max r.1 (n - 2 ^ b), mergeLoop minmax (2 ^ k) ((descending k b).map (2 ^ ·)) r.1
          (n - 2 ^ b - r.1) r.2)) := by
    intro i' hi' hfari
    obtain ⟨e, he, hle, hend, hblocks⟩ := mergeBlocks_spec minmax hb.le hbt x n i' hi'
      (by omega) hfari
    rw [hblocks]
    refine ⟨he, le_max_left _ _, by dsimp only; omega, hfar' _ (le_max_right _ _),
      fun hne => ?_, ?_⟩
    · dsimp only at hne ⊢
      omega
    · dsimp only
      by_cases hpart : e ≤ n - 2 ^ b
      · rw [mergeLoop_chains minmax hb.le hbt he le_rfl (by omega) (hfari.mono hle) (by omega),
          Nat.max_eq_right hpart, Nat.add_sub_cancel' hpart]
      · rw [Nat.max_eq_left (by omega), show n - 2 ^ b - e = 0 by omega]
        rfl
  by_cases hmid : j = i
  · subst hmid
    have hstep := hrest j hi hfar
    simpa only [mergeRound, ne_eq, not_true_eq_false, if_false, Bool.false_eq_true] using hstep
  · rcases resume_spec minmax hb.le hbt hi x (2 ^ k) j hij hj (by omega) hfar
      (hinside hmid) with ⟨hres, hlt, hge⟩ | hres
    · simp only [mergeRound, ne_eq, hmid, not_false_eq_true, if_true, hres]
      exact ⟨hi, hge, hlt, hfar' _ le_rfl, fun _ => hsmall, rfl⟩
    · have hstep := hrest (i + 2 ^ (k + 1)) (by rw [Nat.add_mod_right, hi]) (hfar.mono (by omega))
      simpa only [mergeRound, ne_eq, hmid, not_false_eq_true, if_true, hres, Bool.false_eq_true,
        if_false] using hstep

/-- All rounds of a phase. -/
theorem RoundState.rounds {n k t : ℕ} {x : ℕ → α} (d : ℕ) {s : ℕ × ℕ × (ℕ → α)}
    (hd : k + d ≤ t) (h : RoundState minmax n k t (k + d) x s) :
    RoundState minmax n k t k x ((descending k (k + d)).foldl (mergeRound minmax n k) s) := by
  induction d generalizing s with
  | zero => simpa [descending] using h
  | succ d ih =>
    have hdesc : descending k (k + (d + 1)) = (k + (d + 1)) :: descending k (k + d) := by
      rw [descending, descending, show k + (d + 1) - k = d + 1 by omega,
        show k + d - k = d by omega, List.range'_concat, List.reverse_append]
      simp only [List.reverse_cons, List.reverse_nil, List.nil_append, List.singleton_append,
        Nat.one_mul, List.cons.injEq, and_true]
      omega
    rw [hdesc, List.foldl_cons]
    exact ih (by omega) (h.round (by omega) hd)

/-- A phase of the code is a phase of merge exchange. -/
theorem sortPhase_eq {n t k : ℕ} (hk : k ≤ t) (x : ℕ → α) :
    sortPhase minmax n t k x = runNetwork minmax (phase n t k) x := by
  have hpos : 0 < 2 ^ k := Nat.two_pow_pos k
  have hstart : RoundState minmax n k t (k + (t - k)) (pairPhase minmax n (2 ^ k) x)
      (0, 0, pairPhase minmax n (2 ^ k) x) :=
    ⟨Nat.zero_mod _, le_rfl, by dsimp only; omega, fun b hb hle => by omega,
      fun hne => absurd rfl hne, rfl⟩
  have hend := hstart.rounds (t - k) (by omega)
  rw [show k + (t - k) = t by omega] at hend
  rw [sortPhase, hend.done, phase, runNetwork_append, ← pairPhase_eq]
  -- the cells from there on have no chain
  have hfar := hend.far
  generalize ((descending k t).foldl (mergeRound minmax n k)
    (0, 0, pairPhase minmax n (2 ^ k) x)).2.1 = j at hfar ⊢
  have hempty : ∀ j', min j n ≤ j' → chain n k t j' = [] := by
    intro j' hj'
    rw [chain, List.map_eq_nil_iff, List.filter_eq_nil_iff]
    intro b hb
    have hb := mem_descending.mp hb
    have hout := hfar b hb.1 hb.2
    have hdist := Nat.two_pow_pos b
    simp only [decide_eq_true_eq]
    omega
  have hsame : ∀ c, chains n k t (min j n + c) = chains n k t (min j n) := by
    intro c
    induction c with
    | zero => rfl
    | succ c ih =>
      have hlast : ((List.range' (min j n + c) 1).filter
          fun j => j % 2 ^ (k + 1) < 2 ^ k).flatMap (chain n k t) = [] := by
        rw [List.flatMap_eq_nil_iff]
        intro j' hj'
        have hj' := List.mem_range'_1.mp (List.mem_filter.mp hj').1
        exact hempty j' (by omega)
      rw [List.range'_one] at hlast
      rw [← Nat.add_assoc, chains_eq, lowCells, List.range_succ, List.filter_append,
        List.flatMap_append, hlast, List.append_nil]
      exact ih
  have hj := hsame (j - min j n)
  have hn := hsame (n - min j n)
  rw [Nat.add_sub_cancel' (Nat.min_le_left j n)] at hj
  rw [Nat.add_sub_cancel' (Nat.min_le_right j n)] at hn
  rw [hj, hn]

/-- The loops run merge exchange. -/
theorem sortLoops_eq (n : ℕ) (x : ℕ → α) :
    sortLoops minmax n x = runNetwork minmax (mergeExchange n (topExponent n)) x := by
  have hphases : ∀ k, k ≤ topExponent n + 1 → ∀ x : ℕ → α,
      sortPhases minmax n (topExponent n) k x =
        runNetwork minmax (phases n (topExponent n) k) x := by
    intro k
    induction k with
    | zero => exact fun _ _ => rfl
    | succ k ih =>
      intro hk x
      rw [sortPhases, ih (by omega), sortPhase_eq (by omega), phases,
        runNetwork_append]
  exact hphases _ le_rfl x

end Network

/-! ### What the sort does -/

/-- `crypto_sort_int32` puts any number of words in order and loses none of them. -/
theorem cryptoSortInt32_spec (x : ℕ → Int32) (n : ℕ) :
    (∀ i j, i ≤ j → j < n → cryptoSortInt32 x n i ≤ cryptoSortInt32 x n j) ∧
      ((List.range n).map (cryptoSortInt32 x n)).Perm ((List.range n).map x) ∧
      ∀ k, n ≤ k → cryptoSortInt32 x n k = x k := by
  rw [cryptoSortInt32, sortLoops_eq]
  refine ⟨fun i j hij hj => ?_, mergeExchange_perm isExchange_int32MinMax n _ x, fun k hk => ?_⟩
  · have hsorted := mergeExchange_sorted (le_topExponent n) (Int32.toInt ∘ x) i j hij hj
    rw [runNetwork_map minMax_toInt] at hsorted
    exact Int32.le_iff_toInt_le.mpr hsorted
  · apply runNetwork_other
    intro c hc
    have hlt := mergeExchange_lt c hc
    exact ⟨by omega, by omega⟩

/-- Flipping the top bit of a word. -/
theorem toNat_flip (x : UInt32) :
    (x ^^^ 0x80000000).toNat = if x.toNat < 2 ^ 31 then x.toNat + 2 ^ 31 else x.toNat - 2 ^ 31 := by
  have hx := x.toNat_lt
  have hxor : (x ^^^ 0x80000000).toNat = x.toNat ^^^ 2 ^ 31 := rfl
  have hdiv : (x.toNat ^^^ 2 ^ 31) / 2 ^ 31 = x.toNat / 2 ^ 31 ^^^ 1 := Nat.xor_div_two_pow
  have hmod : (x.toNat ^^^ 2 ^ 31) % 2 ^ 31 = x.toNat % 2 ^ 31 ^^^ 0 := Nat.xor_mod_two_pow
  rw [Nat.xor_zero] at hmod
  rw [hxor]
  generalize x.toNat ^^^ 2 ^ 31 = y at *
  split_ifs with h
  · rw [Nat.div_eq_of_lt h] at hdiv
    have hone : y / 2 ^ 31 = 1 := hdiv
    omega
  · rw [show x.toNat / 2 ^ 31 = 1 by omega] at hdiv
    have hzero : y / 2 ^ 31 = 0 := hdiv
    omega

/-- A flipped word read as a signed one is the word shifted. -/
theorem toInt_flip (x : UInt32) : (x ^^^ 0x80000000).toInt32.toInt = x.toNat - 2 ^ 31 := by
  have hx := x.toNat_lt
  rw [← Int32.toInt_toBitVec, UInt32.toBitVec_toInt32, BitVec.toInt_eq_toNat_cond,
    UInt32.toNat_toBitVec, toNat_flip]
  split_ifs <;> omega

/-- Flipping twice changes nothing. -/
theorem flip_flip (x : UInt32) : x ^^^ 0x80000000 ^^^ 0x80000000 = x := by
  rw [UInt32.xor_assoc, UInt32.xor_self, UInt32.xor_zero]

/-- Below `n` the sort of unsigned words is that of the flipped ones. -/
theorem cryptoSortUint32_flip (x : ℕ → UInt32) {n i : ℕ} (hi : i < n) :
    (cryptoSortUint32 x n i ^^^ 0x80000000).toInt32 = cryptoSortInt32
      (fun j => (if j < n then x j ^^^ 0x80000000 else x j).toInt32) n i := by
  simp only [cryptoSortUint32, if_pos hi]
  rw [flip_flip]
  rfl

/-- The unsigned words come out in order. -/
theorem cryptoSortUint32_sorted (x : ℕ → UInt32) {n i j : ℕ} (hij : i ≤ j) (hj : j < n) :
    cryptoSortUint32 x n i ≤ cryptoSortUint32 x n j := by
  have h := Int32.le_iff_toInt_le.mp ((cryptoSortInt32_spec
    (fun j => (if j < n then x j ^^^ 0x80000000 else x j).toInt32) n).1 i j hij hj)
  rw [← cryptoSortUint32_flip x (by omega), ← cryptoSortUint32_flip x hj, toInt_flip,
    toInt_flip] at h
  exact UInt32.le_iff_toNat_le.mpr (by omega)

/-- No unsigned word is lost. -/
theorem cryptoSortUint32_perm (x : ℕ → UInt32) (n : ℕ) :
    ((List.range n).map (cryptoSortUint32 x n)).Perm ((List.range n).map x) := by
  have hmap := (cryptoSortInt32_spec
    (fun j => (if j < n then x j ^^^ 0x80000000 else x j).toInt32) n).2.1.map
      fun v => v.toUInt32 ^^^ 0x80000000
  rw [List.map_map, List.map_map] at hmap
  have hout : (List.range n).map (cryptoSortUint32 x n) = (List.range n).map
      ((fun v => v.toUInt32 ^^^ 0x80000000) ∘ cryptoSortInt32
        (fun j => (if j < n then x j ^^^ 0x80000000 else x j).toInt32) n) := by
    apply List.map_congr_left
    intro i hi
    simp only [cryptoSortUint32, if_pos (List.mem_range.mp hi), Function.comp_apply]
  have hin : (List.range n).map ((fun v => v.toUInt32 ^^^ 0x80000000) ∘
        fun j => (if j < n then x j ^^^ 0x80000000 else x j).toInt32) =
      (List.range n).map x := by
    apply List.map_congr_left
    intro i hi
    simp only [Function.comp_apply, if_pos (List.mem_range.mp hi)]
    exact flip_flip (x i)
  rwa [← hout, hin] at hmap

/-- The words above `n` stay. -/
theorem cryptoSortUint32_above (x : ℕ → UInt32) {n k : ℕ} (hk : n ≤ k) :
    cryptoSortUint32 x n k = x k := by
  have hk' : ¬ k < n := by omega
  simp only [cryptoSortUint32, if_neg hk', (cryptoSortInt32_spec _ n).2.2 k hk]
  rfl

/-- Whatever operation stands in the place of `int32_MINMAX`, the loops apply it to the same
cells in the same order, with counters that fit. With the macro both sorts put the words in order
without losing one or touching what lies above. -/
theorem cryptoSort_sorts {n : ℕ} (h2 : 2 ≤ n) (hn : n < 2 ^ 30) :
    (∃ net : List (ℕ × ℕ), (∀ c ∈ net, c.1 < n ∧ c.2 < n) ∧
      ∀ (α : Type) (minmax : Comparison α) (x : ℕ → α),
        sortLoops minmax n x = runNetwork minmax net x) ∧
      2 ^ topExponent n < n ∧ n + 2 * 2 ^ topExponent n < 2 ^ 31 ∧
      (∀ x, (∀ i j, i ≤ j → j < n → cryptoSortInt32 x n i ≤ cryptoSortInt32 x n j) ∧
        ((List.range n).map (cryptoSortInt32 x n)).Perm ((List.range n).map x) ∧
        ∀ k, n ≤ k → cryptoSortInt32 x n k = x k) ∧
      ∀ x, (∀ i j, i ≤ j → j < n → cryptoSortUint32 x n i ≤ cryptoSortUint32 x n j) ∧
        ((List.range n).map (cryptoSortUint32 x n)).Perm ((List.range n).map x) ∧
        ∀ k, n ≤ k → cryptoSortUint32 x n k = x k := by
  refine ⟨⟨mergeExchange n (topExponent n), mergeExchange_lt, fun α minmax x => ?_⟩,
    topExponent_lt h2, counters_fit h2 hn, fun x => cryptoSortInt32_spec x n, fun x => ?_⟩
  · exact sortLoops_eq n x
  · exact ⟨fun _ _ hij hj => cryptoSortUint32_sorted x hij hj, cryptoSortUint32_perm x n,
      fun _ hk => cryptoSortUint32_above x hk⟩

/-- Three words in falling order. -/
theorem cryptoSort_sorts_three :
    (∃ net : List (ℕ × ℕ), (∀ c ∈ net, c.1 < 3 ∧ c.2 < 3) ∧
      ∀ (α : Type) (minmax : Comparison α) (x : ℕ → α),
        sortLoops minmax 3 x = runNetwork minmax net x) ∧
      cryptoSortUint32 (fun i => 7 - i.toUInt32) 3 0 ≤
        cryptoSortUint32 (fun i => 7 - i.toUInt32) 3 1 ∧
      ((List.range 3).map (cryptoSortUint32 (fun i => 7 - i.toUInt32) 3)).Perm [7, 6, 5] := by
  obtain ⟨hnet, -, -, -, hsort⟩ := cryptoSort_sorts (n := 3) (by decide) (by decide)
  obtain ⟨hsorted, hperm, -⟩ := hsort fun i => 7 - i.toUInt32
  exact ⟨hnet, hsorted 0 1 (by decide) (by decide), hperm⟩

end SimpleGo.Sntrup
