import Mathlib

/-!
# Comparator networks

A comparator puts the smaller of two cells first. Its operation is a parameter: a program
compares machine words with an expression of its own, and a map that takes that operation
to another one takes the whole run of a network with it (`run_map`). Two uses of this are
the passage from machine words to integers, and the 0-1 principle: a network that sorts all
Boolean arrays sorts all arrays (`sorted_of_bool`).

`mergeExchange` is Batcher's merge exchange for any number of cells. Before the phase of
distance `2 ^ k` the cells at distance `2 ^ (k + 1)` are in order, after it those at distance
`2 ^ k` are (`ordered_phase`).
-/

namespace SimpleGo.Lib

variable {α β : Type*}

/-- A comparison of two cells, the first result for the first cell. -/
abbrev Comparison (α : Type*) := α → α → α × α

/-- The comparison of an order. -/
def minMax [LinearOrder α] : Comparison α := fun a b => (min a b, max a b)

/-- One comparator on an array. -/
def compareAt (cmp : Comparison α) (x : ℕ → α) (c : ℕ × ℕ) : ℕ → α :=
  Function.update (Function.update x c.1 (cmp (x c.1) (x c.2)).1) c.2 (cmp (x c.1) (x c.2)).2

/-- The comparators of a network one after the other. -/
def runNetwork (cmp : Comparison α) (net : List (ℕ × ℕ)) (x : ℕ → α) : ℕ → α :=
  net.foldl (compareAt cmp) x

@[simp] theorem runNetwork_nil (cmp : Comparison α) (x : ℕ → α) : runNetwork cmp [] x = x := rfl

@[simp] theorem runNetwork_cons (cmp : Comparison α) (c : ℕ × ℕ) (net : List (ℕ × ℕ))
    (x : ℕ → α) : runNetwork cmp (c :: net) x = runNetwork cmp net (compareAt cmp x c) := rfl

/-- Two networks one after the other. -/
theorem runNetwork_append (cmp : Comparison α) (first second : List (ℕ × ℕ)) (x : ℕ → α) :
    runNetwork cmp (first ++ second) x = runNetwork cmp second (runNetwork cmp first x) :=
  List.foldl_append

/-- The second cell of a comparator. -/
theorem compareAt_snd (cmp : Comparison α) (x : ℕ → α) (i j : ℕ) :
    compareAt cmp x (i, j) j = (cmp (x i) (x j)).2 :=
  Function.update_self ..

/-- The first cell of a comparator. -/
theorem compareAt_fst (cmp : Comparison α) (x : ℕ → α) {i j : ℕ} (h : i ≠ j) :
    compareAt cmp x (i, j) i = (cmp (x i) (x j)).1 := by
  simp only [compareAt, Function.update_of_ne h, Function.update_self]

/-- The other cells stay. -/
theorem compareAt_other (cmp : Comparison α) (x : ℕ → α) {i j k : ℕ} (hi : k ≠ i) (hj : k ≠ j) :
    compareAt cmp x (i, j) k = x k := by
  simp only [compareAt, Function.update_of_ne hi, Function.update_of_ne hj]

/-- A network leaves a cell it does not name. -/
theorem runNetwork_other (cmp : Comparison α) {net : List (ℕ × ℕ)} {k : ℕ}
    (h : ∀ c ∈ net, k ≠ c.1 ∧ k ≠ c.2) (x : ℕ → α) : runNetwork cmp net x k = x k := by
  induction net generalizing x with
  | nil => rfl
  | cons c net ih =>
    have hc := h c List.mem_cons_self
    rw [runNetwork_cons, ih fun c' hc' => h c' (List.mem_cons_of_mem _ hc')]
    exact compareAt_other cmp x hc.1 hc.2

/-! ### Maps and permutations -/

/-- A map between two comparisons commutes with a comparator. -/
theorem compareAt_map {cmp : Comparison α} {cmp' : Comparison β} {f : α → β}
    (h : ∀ a b, cmp' (f a) (f b) = (f (cmp a b).1, f (cmp a b).2)) (x : ℕ → α) (c : ℕ × ℕ) :
    compareAt cmp' (f ∘ x) c = f ∘ compareAt cmp x c := by
  funext k
  simp only [compareAt, Function.comp_apply, h, Function.update_apply]
  split_ifs <;> rfl

/-- It commutes with a network. -/
theorem runNetwork_map {cmp : Comparison α} {cmp' : Comparison β} {f : α → β}
    (h : ∀ a b, cmp' (f a) (f b) = (f (cmp a b).1, f (cmp a b).2)) (net : List (ℕ × ℕ))
    (x : ℕ → α) : runNetwork cmp' net (f ∘ x) = f ∘ runNetwork cmp net x := by
  induction net generalizing x with
  | nil => rfl
  | cons c net ih => rw [runNetwork_cons, compareAt_map h, ih, runNetwork_cons]

/-- The two cells keep their values or exchange them. -/
def IsExchange (cmp : Comparison α) : Prop := ∀ a b, cmp a b = (a, b) ∨ cmp a b = (b, a)

/-- A comparator of an exchanging comparison permutes two cells. -/
theorem compareAt_perm {cmp : Comparison α} (h : IsExchange cmp) (x : ℕ → α) {i j n : ℕ}
    (hi : i < n) (hj : j < n) :
    ∃ σ : Equiv.Perm ℕ, (∀ k, n ≤ k → σ k = k) ∧ compareAt cmp x (i, j) = x ∘ σ := by
  rcases h (x i) (x j) with hc | hc
  · exact ⟨Equiv.refl ℕ, fun _ _ => rfl, by simp [compareAt, hc]⟩
  · refine ⟨Equiv.swap i j, fun k hk => Equiv.swap_apply_of_ne_of_ne (by omega) (by omega), ?_⟩
    funext k
    simp only [compareAt, hc, Function.update_apply, Function.comp_apply, Equiv.swap_apply_def]
    split_ifs with hkj hki hki <;> simp_all

/-- A network whose comparators lie below `n` permutes the cells below `n`. -/
theorem runNetwork_perm {cmp : Comparison α} (h : IsExchange cmp) {net : List (ℕ × ℕ)} {n : ℕ}
    (hnet : ∀ c ∈ net, c.1 < n ∧ c.2 < n) (x : ℕ → α) :
    ∃ σ : Equiv.Perm ℕ, (∀ k, n ≤ k → σ k = k) ∧ runNetwork cmp net x = x ∘ σ := by
  induction net generalizing x with
  | nil => exact ⟨Equiv.refl ℕ, fun _ _ => rfl, rfl⟩
  | cons c net ih =>
    have hc := hnet c List.mem_cons_self
    obtain ⟨σ, hσ, hstep⟩ := compareAt_perm h x hc.1 hc.2
    obtain ⟨τ, hτ, hrun⟩ := ih (fun c' hc' => hnet c' (List.mem_cons_of_mem _ hc'))
      (compareAt cmp x c)
    refine ⟨τ.trans σ, fun k hk => ?_, ?_⟩
    · rw [Equiv.trans_apply, hτ k hk, hσ k hk]
    · rw [runNetwork_cons, hrun, hstep]
      rfl

/-- A permutation that fixes all cells from `n` on permutes the list of the first `n`. -/
theorem map_range_perm {σ : Equiv.Perm ℕ} {n : ℕ} (hσ : ∀ k, n ≤ k → σ k = k) (x : ℕ → α) :
    ((List.range n).map (x ∘ σ)).Perm ((List.range n).map x) := by
  rw [← List.map_map]
  apply List.Perm.map
  rw [List.perm_ext_iff_of_nodup ((List.nodup_map_iff σ.injective).mpr List.nodup_range)
    List.nodup_range]
  intro k
  simp only [List.mem_map, List.mem_range]
  constructor
  · rintro ⟨i, hi, rfl⟩
    by_contra hge
    exact absurd (σ.injective (hσ _ (not_lt.mp hge))) (by omega)
  · intro hk
    refine ⟨σ.symm k, ?_, σ.apply_symm_apply k⟩
    by_contra hge
    have h := hσ _ (not_lt.mp hge)
    rw [σ.apply_symm_apply] at h
    omega

/-! ### The 0-1 principle -/

/-- The first `n` cells are in order. -/
def SortedBelow [LE α] (n : ℕ) (x : ℕ → α) : Prop := ∀ i j, i ≤ j → j < n → x i ≤ x j

/-- A threshold commutes with the comparison of the order. -/
theorem minMax_threshold [LinearOrder α] (c a b : α) :
    minMax (decide (c ≤ a)) (decide (c ≤ b)) =
      (decide (c ≤ (minMax a b).1), decide (c ≤ (minMax a b).2)) := by
  simp only [minMax, le_min_iff, le_max_iff, Bool.decide_and, Bool.decide_or]
  rfl

/-- A network that sorts all Boolean arrays sorts every array. -/
theorem sorted_of_bool [LinearOrder α] {net : List (ℕ × ℕ)} {n : ℕ}
    (h : ∀ b : ℕ → Bool, SortedBelow n (runNetwork minMax net b)) (x : ℕ → α) :
    SortedBelow n (runNetwork minMax net x) := by
  intro i j hij hj
  have hb := h (fun k => decide (runNetwork minMax net x i ≤ x k)) i j hij hj
  have hmap := runNetwork_map (f := fun a => decide (runNetwork minMax net x i ≤ a))
    (minMax_threshold _) net x
  rw [show (fun k => decide (runNetwork minMax net x i ≤ x k)) =
    (fun a => decide (runNetwork minMax net x i ≤ a)) ∘ x from rfl, hmap] at hb
  simp only [Function.comp_apply, le_refl, decide_true] at hb
  exact of_decide_eq_true (Bool.eq_true_of_true_le hb)

/-! ### Batcher's merge exchange -/

/-- The exponents `t, t - 1, …, k + 1`. -/
def descending (k t : ℕ) : List ℕ := (List.range' (k + 1) (t - k)).reverse

/-- The comparators at distance `2 ^ k`. -/
def adjacent (n k : ℕ) : List (ℕ × ℕ) :=
  ((List.range n).filter fun j => j % 2 ^ (k + 1) < 2 ^ k ∧ j + 2 ^ k < n).map
    fun j => (j, j + 2 ^ k)

/-- The comparators of cell `j + 2 ^ k` with the cells `j + 2 ^ b`, the farthest first. -/
def chain (n k t j : ℕ) : List (ℕ × ℕ) :=
  ((descending k t).filter fun b => j + 2 ^ b < n).map fun b => (j + 2 ^ k, j + 2 ^ b)

/-- The chains of the cells below `m`. -/
def chains (n k t m : ℕ) : List (ℕ × ℕ) :=
  ((List.range m).filter fun j => j % 2 ^ (k + 1) < 2 ^ k).flatMap (chain n k t)

/-- The phase of distance `2 ^ k`. -/
def phase (n t k : ℕ) : List (ℕ × ℕ) := adjacent n k ++ chains n k t n

/-- The phases of the distances `2 ^ (k - 1), …, 2, 1`. -/
def phases (n t : ℕ) : ℕ → List (ℕ × ℕ)
  | 0 => []
  | k + 1 => phase n t k ++ phases n t k

/-- Merge exchange on `n` cells, `2 ^ t` the largest distance. -/
def mergeExchange (n t : ℕ) : List (ℕ × ℕ) := phases n t (t + 1)

/-- The exponents above `k` up to `t`. -/
theorem mem_descending {k t b : ℕ} : b ∈ descending k t ↔ k < b ∧ b ≤ t := by
  simp only [descending, List.mem_reverse, List.mem_range'_1]
  omega

/-- Each exponent comes after all larger ones. -/
theorem descending_pairwise (k t : ℕ) : (descending k t).Pairwise (· > ·) := by
  rw [descending, List.pairwise_reverse]
  exact List.pairwise_lt_range'

/-- All comparators lie below `n`. -/
theorem mergeExchange_lt {n t : ℕ} : ∀ c ∈ mergeExchange n t, c.1 < n ∧ c.2 < n := by
  have hphase : ∀ k, ∀ c ∈ phase n t k, c.1 < n ∧ c.2 < n := by
    intro k c hc
    rcases List.mem_append.mp hc with hc | hc
    · obtain ⟨j, hj, rfl⟩ := List.mem_map.mp hc
      have hj := of_decide_eq_true (List.mem_filter.mp hj).2
      exact ⟨by omega, hj.2⟩
    · obtain ⟨j, -, hc⟩ := List.mem_flatMap.mp hc
      obtain ⟨b, hb, rfl⟩ := List.mem_map.mp hc
      have hb' := of_decide_eq_true (List.mem_filter.mp hb).2
      have hk := mem_descending.mp (List.mem_filter.mp hb).1
      have hpow : 2 ^ k < 2 ^ b := Nat.pow_lt_pow_right (by decide) hk.1
      exact ⟨by omega, hb'⟩
  have hphases : ∀ k, ∀ c ∈ phases n t k, c.1 < n ∧ c.2 < n := by
    intro k
    induction k with
    | zero => exact fun c hc => absurd hc List.not_mem_nil
    | succ k ih =>
      intro c hc
      exact (List.mem_append.mp hc).elim (hphase k c) (ih c)
  exact hphases (t + 1)

/-- Cells at distance `d` are in order. -/
def Ordered [LE α] (n d : ℕ) (x : ℕ → α) : Prop := ∀ i, i + d < n → x i ≤ x (i + d)

/-- Neighbours in order are an array in order. -/
theorem Ordered.sorted [LinearOrder α] {n : ℕ} {x : ℕ → α} (h : Ordered n 1 x) :
    SortedBelow n x := by
  intro i j hij hj
  induction j, hij using Nat.le_induction with
  | base => exact le_rfl
  | succ j hij ih => exact (ih (by omega)).trans (h j hj)

/-- Comparators without a common cell act on the array before them. -/
theorem runNetwork_disjoint (cmp : Comparison α) {l : List ℕ} {f g : ℕ → ℕ}
    (hfg : ∀ j, f j ≠ g j)
    (hl : l.Pairwise fun i j => f i ≠ f j ∧ f i ≠ g j ∧ g i ≠ f j ∧ g i ≠ g j)
    (x : ℕ → α) {j : ℕ} (hj : j ∈ l) :
    runNetwork cmp (l.map fun j => (f j, g j)) x (f j) = (cmp (x (f j)) (x (g j))).1 ∧
      runNetwork cmp (l.map fun j => (f j, g j)) x (g j) = (cmp (x (f j)) (x (g j))).2 := by
  induction l generalizing x with
  | nil => exact absurd hj List.not_mem_nil
  | cons i l ih =>
    obtain ⟨hi, hl⟩ := List.pairwise_cons.mp hl
    rw [List.map_cons, runNetwork_cons]
    rcases List.mem_cons.mp hj with rfl | hj
    · have hother : ∀ c ∈ l.map fun j => (f j, g j), (f j ≠ c.1 ∧ f j ≠ c.2) ∧
          (g j ≠ c.1 ∧ g j ≠ c.2) := by
        intro c hc
        obtain ⟨i, hmem, rfl⟩ := List.mem_map.mp hc
        obtain ⟨h1, h2, h3, h4⟩ := hi i hmem
        exact ⟨⟨h1, h2⟩, h3, h4⟩
      rw [runNetwork_other cmp fun c hc => (hother c hc).1,
        runNetwork_other cmp fun c hc => (hother c hc).2]
      exact ⟨compareAt_fst cmp x (hfg j), compareAt_snd cmp x _ _⟩
    · obtain ⟨h1, h2, h3, h4⟩ := hi j hj
      have hx := ih hl (compareAt cmp x (f i, g i)) hj
      rwa [compareAt_other cmp x h1.symm h3.symm, compareAt_other cmp x h2.symm h4.symm] at hx

/-- What the comparators at distance `2 ^ k` do to a pair. -/
theorem runNetwork_adjacent (cmp : Comparison α) (n k : ℕ) (x : ℕ → α) {j : ℕ}
    (hj : j % 2 ^ (k + 1) < 2 ^ k) (hn : j + 2 ^ k < n) :
    runNetwork cmp (adjacent n k) x j = (cmp (x j) (x (j + 2 ^ k))).1 ∧
      runNetwork cmp (adjacent n k) x (j + 2 ^ k) = (cmp (x j) (x (j + 2 ^ k))).2 := by
  have hpos : 0 < 2 ^ k := Nat.two_pow_pos k
  have hdouble : 2 ^ (k + 1) = 2 ^ k + 2 ^ k := by rw [Nat.pow_succ]; omega
  refine runNetwork_disjoint cmp (f := fun j => j) (g := fun j => j + 2 ^ k)
    (fun j => by omega) ?_ x ?_
  · apply List.Pairwise.imp_of_mem (R := (· < ·)) _
      (List.Pairwise.filter _ List.pairwise_lt_range)
    intro i j hi hj hij
    have hi := (of_decide_eq_true (List.mem_filter.mp hi).2).1
    have hj := (of_decide_eq_true (List.mem_filter.mp hj).2).1
    have hmod : j ≠ i + 2 ^ k := by
      rintro rfl
      rw [Nat.add_mod, Nat.mod_eq_of_lt (show 2 ^ k < 2 ^ (k + 1) by omega),
        Nat.mod_eq_of_lt (by omega)] at hj
      omega
    refine ⟨by omega, by omega, fun h => hmod h.symm, by omega⟩
  · exact List.mem_filter.mpr ⟨List.mem_range.mpr (by omega), decide_eq_true ⟨hj, hn⟩⟩

/-- A cell without a partner at distance `2 ^ k` stays. -/
theorem runNetwork_adjacent_last (cmp : Comparison α) (n k : ℕ) (x : ℕ → α) {j : ℕ}
    (hj : j % 2 ^ (k + 1) < 2 ^ k) (hn : n ≤ j + 2 ^ k) :
    runNetwork cmp (adjacent n k) x j = x j := by
  refine runNetwork_other cmp (fun c hc => ?_) x
  obtain ⟨i, hi, rfl⟩ := List.mem_map.mp hc
  obtain ⟨hi, hin⟩ := of_decide_eq_true (List.mem_filter.mp hi).2
  refine ⟨by omega, ?_⟩
  rintro rfl
  have hdouble : 2 ^ (k + 1) = 2 ^ k + 2 ^ k := by rw [Nat.pow_succ]; omega
  have hpos : 0 < 2 ^ k := Nat.two_pow_pos k
  rw [Nat.add_mod, Nat.mod_eq_of_lt (show 2 ^ k < 2 ^ (k + 1) by omega),
    Nat.mod_eq_of_lt (by omega)] at hj
  omega

/-! ### A phase on Boolean arrays

The cells of one class modulo `2 ^ k` are two sequences, at `D * m + r` and `D * m + (r + 2 ^ k)`
with `D = 2 ^ (k + 1)`. Each is given by the positions of its zeros.
-/

/-- The positions `m` at which the cell `D * m + r` below `n` holds zero. -/
def Zeros (n D r : ℕ) (x : ℕ → Bool) (S : ℕ → Prop) : Prop :=
  ∀ m, (D * m + r < n ∧ x (D * m + r) = false) ↔ S m

/-- Only the cells of the residue class count. -/
theorem Zeros.congr {n D r : ℕ} {x x' : ℕ → Bool} {S S' : ℕ → Prop} (h : Zeros n D r x S)
    (hx : ∀ m, x' (D * m + r) = x (D * m + r)) (hS : ∀ m, S m ↔ S' m) : Zeros n D r x' S' :=
  fun m => by rw [hx, h m, hS]

/-- Cells at a multiple of the distance are in order too. -/
theorem Ordered.le_add_mul {n d : ℕ} {x : ℕ → Bool} (h : Ordered n d x) (i c : ℕ)
    (hn : i + d * c < n) : x i ≤ x (i + d * c) := by
  induction c with
  | zero => exact le_rfl
  | succ c ih =>
    rw [Nat.mul_succ, ← Nat.add_assoc] at hn ⊢
    exact (ih (by omega)).trans (h _ hn)

/-- In an ordered class the zeros come first. -/
theorem Ordered.exists_zeros {n D : ℕ} {x : ℕ → Bool} (h : Ordered n D x) (hD : 0 < D) (r : ℕ) :
    ∃ s, Zeros n D r x (· < s) := by
  have hex : ∃ m, ¬ (D * m + r < n ∧ x (D * m + r) = false) := by
    refine ⟨n, fun hn => ?_⟩
    have := Nat.le_mul_of_pos_left n hD
    omega
  refine ⟨Nat.find hex, fun m => ⟨fun hm => ?_, fun hm => ?_⟩⟩
  · by_contra hle
    rw [not_lt] at hle
    have hsplit : D * m + r = D * Nat.find hex + r + D * (m - Nat.find hex) := by
      rw [Nat.mul_sub]
      have := Nat.mul_le_mul_left D hle
      omega
    refine Nat.find_spec hex ⟨by omega, ?_⟩
    have hle := h.le_add_mul (D * Nat.find hex + r) (m - Nat.find hex) (by omega)
    rw [← hsplit, hm.2] at hle
    exact Bool.eq_false_of_le_false hle
  · exact not_not.mp (Nat.find_min hex hm)

/-- Zeros lie below `n`. -/
theorem Zeros.valid {n D r : ℕ} {x : ℕ → Bool} {S : ℕ → Prop} (h : Zeros n D r x S) {m : ℕ}
    (hm : S m) : D * m + r < n := ((h m).mpr hm).1

/-- A cell of the zeros. -/
theorem Zeros.eq_false {n D r : ℕ} {x : ℕ → Bool} {S : ℕ → Prop} (h : Zeros n D r x S) {m : ℕ}
    (hm : S m) : x (D * m + r) = false := ((h m).mpr hm).2

/-- A cell that is not among the zeros. -/
theorem Zeros.eq_true {n D r : ℕ} {x : ℕ → Bool} {S : ℕ → Prop} (h : Zeros n D r x S) {m : ℕ}
    (hn : D * m + r < n) (hm : ¬ S m) : x (D * m + r) = true := by
  cases hx : x (D * m + r) with
  | false => exact absurd ((h m).mp ⟨hn, hx⟩) hm
  | true => rfl

/-- There are at most `2 ^ (t - k)` zeros in a sequence. -/
theorem Zeros.le_pow {n k t r s : ℕ} {x : ℕ → Bool} (h : Zeros n (2 ^ (k + 1)) r x (· < s))
    (hk : k ≤ t) (hn : n ≤ 2 ^ (t + 1)) : s ≤ 2 ^ (t - k) := by
  cases s with
  | zero => exact Nat.zero_le _
  | succ s =>
    have hlt := h.valid (m := s) (Nat.lt_succ_self s)
    have hpow : 2 ^ (t + 1) = 2 ^ (k + 1) * 2 ^ (t - k) := by rw [← Nat.pow_add]; congr 1; omega
    exact Nat.lt_of_mul_lt_mul_left (a := 2 ^ (k + 1)) (by omega)

/-- The first comparators of a phase put the zeros into the first sequence. -/
theorem Zeros.adjacent {n k r s t : ℕ} {x : ℕ → Bool} (hr : r < 2 ^ k)
    (hs : Zeros n (2 ^ (k + 1)) r x (· < s)) (ht : Zeros n (2 ^ (k + 1)) (r + 2 ^ k) x (· < t)) :
    Zeros n (2 ^ (k + 1)) r (runNetwork minMax (adjacent n k) x) (· < max s t) ∧
      Zeros n (2 ^ (k + 1)) (r + 2 ^ k) (runNetwork minMax (adjacent n k) x) (· < min s t) := by
  have hdouble : 2 ^ (k + 1) = 2 ^ k + 2 ^ k := by rw [Nat.pow_succ]; omega
  have hmod : ∀ m, (2 ^ (k + 1) * m + r) % 2 ^ (k + 1) < 2 ^ k := fun m => by
    rw [Nat.mul_add_mod, Nat.mod_eq_of_lt (by omega)]
    exact hr
  have hsm : ∀ m, (2 ^ (k + 1) * m + r < n ∧ x (2 ^ (k + 1) * m + r) = false) ↔ m < s := hs
  have htm : ∀ m, (2 ^ (k + 1) * m + r + 2 ^ k < n ∧
      x (2 ^ (k + 1) * m + r + 2 ^ k) = false) ↔ m < t := fun m => by
    rw [Nat.add_assoc]
    exact ht m
  have hmin : ∀ a b : Bool, min a b = false ↔ a = false ∨ b = false := by decide
  have hmax : ∀ a b : Bool, max a b = false ↔ a = false ∧ b = false := by decide
  constructor
  · intro m
    beta_reduce
    rw [lt_max_iff, ← hsm, ← htm]
    by_cases hn : 2 ^ (k + 1) * m + r + 2 ^ k < n
    · rw [(runNetwork_adjacent minMax n k x (hmod m) hn).1]
      simp only [minMax, hmin]
      grind
    · rw [runNetwork_adjacent_last minMax n k x (hmod m) (by omega)]
      grind
  · intro m
    beta_reduce
    rw [lt_min_iff, ← hsm, ← htm, ← Nat.add_assoc]
    by_cases hn : 2 ^ (k + 1) * m + r + 2 ^ k < n
    · rw [(runNetwork_adjacent minMax n k x (hmod m) hn).2]
      simp only [minMax, hmax]
      grind
    · grind

/-! ### A chain on Boolean arrays -/

/-- A comparator whose second cell holds one does nothing. -/
theorem compareAt_true {x : ℕ → Bool} {i j : ℕ} (h : x j = true) :
    compareAt minMax x (i, j) = x := by
  have hmin : ∀ a : Bool, (minMax a true : Bool × Bool) = (a, true) := by decide
  simp only [compareAt, h, hmin, Function.update_eq_self]
  rw [← h, Function.update_eq_self]

/-- A comparator whose first cell holds zero does nothing. -/
theorem compareAt_false {x : ℕ → Bool} {i j : ℕ} (h : x i = false) :
    compareAt minMax x (i, j) = x := by
  have hmin : ∀ a : Bool, (minMax false a : Bool × Bool) = (false, a) := by decide
  simp only [compareAt, h, hmin]
  rw [← h, Function.update_eq_self, Function.update_eq_self]

/-- A run of comparators of which each does nothing. -/
theorem runNetwork_idle {x : ℕ → Bool} {net : List (ℕ × ℕ)}
    (h : ∀ c ∈ net, x c.1 = false ∨ x c.2 = true) : runNetwork minMax net x = x := by
  induction net with
  | nil => rfl
  | cons c net ih =>
    have hc : compareAt minMax x c = x :=
      (h c List.mem_cons_self).elim compareAt_false compareAt_true
    rw [runNetwork_cons, hc]
    exact ih fun c' hc' => h c' (List.mem_cons_of_mem _ hc')

/-- A chain exchanges its cell with the farthest zero. -/
theorem runNetwork_chain_swap {x : ℕ → Bool} {n k t j b : ℕ} (hb : k < b ∧ b ≤ t)
    (hn : j + 2 ^ b < n) (hone : x (j + 2 ^ k) = true) (hzero : x (j + 2 ^ b) = false)
    (hfar : ∀ b', b < b' → b' ≤ t → j + 2 ^ b' < n → x (j + 2 ^ b') = true) :
    runNetwork minMax (chain n k t j) x =
      Function.update (Function.update x (j + 2 ^ k) false) (j + 2 ^ b) true := by
  have hmem : b ∈ (descending k t).filter fun b => j + 2 ^ b < n :=
    List.mem_filter.mpr ⟨mem_descending.mpr hb, decide_eq_true hn⟩
  obtain ⟨far, near, hsplit⟩ := List.append_of_mem hmem
  have hpair := List.Pairwise.filter (fun b => decide (j + 2 ^ b < n)) (descending_pairwise k t)
  rw [hsplit, List.pairwise_append] at hpair
  have hpow : 2 ^ k < 2 ^ b := Nat.pow_lt_pow_right (by decide) hb.1
  have hidle : runNetwork minMax (far.map fun b => (j + 2 ^ k, j + 2 ^ b)) x = x := by
    apply runNetwork_idle
    intro c hc
    obtain ⟨b', hb', rfl⟩ := List.mem_map.mp hc
    have hmem' : b' ∈ (descending k t).filter fun b => j + 2 ^ b < n :=
      hsplit ▸ List.mem_append_left _ hb'
    obtain ⟨hdesc, hlt⟩ := List.mem_filter.mp hmem'
    exact Or.inr (hfar b' (hpair.2.2 b' hb' b List.mem_cons_self) (mem_descending.mp hdesc).2
      (of_decide_eq_true hlt))
  rw [chain, hsplit, List.map_append, runNetwork_append, hidle, List.map_cons, runNetwork_cons]
  · have hstep : compareAt minMax x (j + 2 ^ k, j + 2 ^ b) =
        Function.update (Function.update x (j + 2 ^ k) false) (j + 2 ^ b) true := by
      simp only [compareAt, hone, hzero]
      rfl
    rw [hstep, runNetwork_idle]
    intro c hc
    obtain ⟨b', -, rfl⟩ := List.mem_map.mp hc
    left
    rw [Function.update_of_ne (by omega), Function.update_self]

/-- A chain leaves the other classes. -/
theorem runNetwork_chain_other {x : ℕ → Bool} {n k t j i : ℕ} (hj : j % 2 ^ (k + 1) < 2 ^ k)
    (hfst : i % 2 ^ (k + 1) ≠ j % 2 ^ (k + 1))
    (hsnd : i % 2 ^ (k + 1) ≠ j % 2 ^ (k + 1) + 2 ^ k) :
    runNetwork minMax (chain n k t j) x i = x i := by
  have hdouble : 2 ^ (k + 1) = 2 ^ k + 2 ^ k := by rw [Nat.pow_succ]; omega
  have hpos : 0 < 2 ^ k := Nat.two_pow_pos k
  refine runNetwork_other minMax (fun c hc => ?_) x
  obtain ⟨b, hb, rfl⟩ := List.mem_map.mp hc
  have hb := (mem_descending.mp (List.mem_filter.mp hb).1).1
  constructor
  · rintro rfl
    rw [Nat.add_mod, Nat.mod_eq_of_lt (show 2 ^ k < 2 ^ (k + 1) by omega),
      Nat.mod_eq_of_lt (show j % 2 ^ (k + 1) + 2 ^ k < 2 ^ (k + 1) by omega)] at hsnd
    exact hsnd rfl
  · rintro rfl
    have hdvd : 2 ^ (k + 1) ∣ 2 ^ b := Nat.pow_dvd_pow 2 hb
    rw [Nat.add_mod, Nat.mod_eq_zero_of_dvd hdvd, Nat.add_zero, Nat.mod_mod] at hfst
    exact hfst rfl

/-! ### The chains of one class

`Merging` is the state of a class before its chain `m`. Either the zeros of both sequences come
first, and chain `m` still meets a zero or there is nothing left to exchange; or the chains
exchange with distance `2 ^ c`, which has left a gap in the zeros of the first sequence.
-/

/-- The state of the class of `r` before its chain `m`. -/
def Merging (n k t r m : ℕ) (x : ℕ → Bool) : Prop :=
  (∃ u v, Zeros n (2 ^ (k + 1)) r x (· < u) ∧ Zeros n (2 ^ (k + 1)) (r + 2 ^ k) x (· < v) ∧
    v ≤ u ∧ u ≤ v + 2 ^ (t - k) ∧ (m ≤ v ∨ u ≤ v + 1)) ∨
  (∃ u s c, Zeros n (2 ^ (k + 1)) r x (fun i => i < u ∨ m + 2 ^ c ≤ i ∧ i < s) ∧
    Zeros n (2 ^ (k + 1)) (r + 2 ^ k) x (· < m) ∧
    c < t - k ∧ u ≤ m + 2 ^ c ∧ m + 2 ^ c < s ∧ s ≤ m + 2 ^ (c + 1) ∧ s ≤ u + 2 ^ c)

/-- The state is one of the cells of the class. -/
theorem Merging.congr {n k t r m : ℕ} {x x' : ℕ → Bool} (h : Merging n k t r m x)
    (hfst : ∀ i, x' (2 ^ (k + 1) * i + r) = x (2 ^ (k + 1) * i + r))
    (hsnd : ∀ i, x' (2 ^ (k + 1) * i + (r + 2 ^ k)) = x (2 ^ (k + 1) * i + (r + 2 ^ k))) :
    Merging n k t r m x' := by
  rcases h with ⟨u, v, hu, hv, h⟩ | ⟨u, s, c, hu, hv, h⟩
  · exact Or.inl ⟨u, v, hu.congr hfst fun _ => Iff.rfl, hv.congr hsnd fun _ => Iff.rfl, h⟩
  · exact Or.inr ⟨u, s, c, hu.congr hfst fun _ => Iff.rfl, hv.congr hsnd fun _ => Iff.rfl, h⟩

/-- What an exchange does to the zeros. -/
theorem Zeros.exchange {n k r m i : ℕ} {x : ℕ → Bool} {S R : ℕ → Prop} (hr : r < 2 ^ k)
    (hS : Zeros n (2 ^ (k + 1)) r x S) (hR : Zeros n (2 ^ (k + 1)) (r + 2 ^ k) x R)
    (hm : 2 ^ (k + 1) * m + (r + 2 ^ k) < n) :
    Zeros n (2 ^ (k + 1)) r (Function.update (Function.update x
        (2 ^ (k + 1) * m + r + 2 ^ k) false) (2 ^ (k + 1) * i + r) true) (fun a => S a ∧ a ≠ i) ∧
      Zeros n (2 ^ (k + 1)) (r + 2 ^ k) (Function.update (Function.update x
        (2 ^ (k + 1) * m + r + 2 ^ k) false) (2 ^ (k + 1) * i + r) true)
        (fun a => R a ∨ a = m) := by
  have hdouble : 2 ^ (k + 1) = 2 ^ k + 2 ^ k := by rw [Nat.pow_succ]; omega
  have hpos : 0 < 2 ^ (k + 1) := Nat.two_pow_pos _
  have hne : ∀ a b, 2 ^ (k + 1) * a + r ≠ 2 ^ (k + 1) * b + (r + 2 ^ k) := fun a b h => by
    have hmod := congrArg (· % 2 ^ (k + 1)) h
    simp only [Nat.mul_add_mod] at hmod
    rw [Nat.mod_eq_of_lt (by omega), Nat.mod_eq_of_lt (by omega)] at hmod
    omega
  have hinj : ∀ {a b c}, 2 ^ (k + 1) * a + c = 2 ^ (k + 1) * b + c → a = b := fun h =>
    Nat.eq_of_mul_eq_mul_left hpos (by omega)
  constructor
  · intro a
    beta_reduce
    rw [← hS a]
    by_cases ha : a = i
    · subst ha
      simp
    · rw [Function.update_of_ne fun h => ha (hinj h),
        Function.update_of_ne fun h => hne a m (by omega)]
      simp [ha]
  · intro a
    beta_reduce
    rw [← hR a, Function.update_of_ne fun h => hne i a (by omega)]
    by_cases ha : a = m
    · subst ha
      rw [show 2 ^ (k + 1) * a + (r + 2 ^ k) = 2 ^ (k + 1) * a + r + 2 ^ k by omega,
        Function.update_self]
      simp
      omega
    · rw [Function.update_of_ne fun h => ha (hinj (c := r + 2 ^ k) (by omega))]
      simp [ha]

/-- The state before the first chain. -/
theorem Merging.start {n k t r : ℕ} {x : ℕ → Bool} (h : Ordered n (2 ^ (k + 1)) x)
    (hr : r < 2 ^ k) (hk : k ≤ t) (hn : n ≤ 2 ^ (t + 1)) :
    Merging n k t r 0 (runNetwork minMax (adjacent n k) x) := by
  obtain ⟨s, hs⟩ := h.exists_zeros (Nat.two_pow_pos _) r
  obtain ⟨v, hv⟩ := h.exists_zeros (Nat.two_pow_pos _) (r + 2 ^ k)
  obtain ⟨hmax, hmin⟩ := hs.adjacent hr hv
  have hle := hmax.le_pow hk hn
  exact Or.inl ⟨max s v, min s v, hmax, hmin, by omega, by omega, Or.inl (Nat.zero_le _)⟩

/-- The exchange of a chain, in terms of the class. -/
theorem Zeros.chain {n k t r m c : ℕ} {x : ℕ → Bool} {S R : ℕ → Prop} (hr : r < 2 ^ k)
    (hS : Zeros n (2 ^ (k + 1)) r x S) (hR : Zeros n (2 ^ (k + 1)) (r + 2 ^ k) x R)
    (hc : c < t - k) (hzero : S (m + 2 ^ c)) (hone : ¬ R m)
    (hfar : ∀ c', c < c' → ¬ S (m + 2 ^ c')) :
    Zeros n (2 ^ (k + 1)) r
        (runNetwork minMax (Lib.chain n k t (2 ^ (k + 1) * m + r)) x)
        (fun a => S a ∧ a ≠ m + 2 ^ c) ∧
      Zeros n (2 ^ (k + 1)) (r + 2 ^ k)
        (runNetwork minMax (Lib.chain n k t (2 ^ (k + 1) * m + r)) x)
        (fun a => R a ∨ a = m) := by
  have hcell : ∀ d, 2 ^ (k + 1) * m + r + 2 ^ (k + 1 + d) = 2 ^ (k + 1) * (m + 2 ^ d) + r :=
    fun d => by rw [Nat.pow_add 2 (k + 1) d, Nat.mul_add, Nat.add_right_comm]
  have hvalid := hS.valid hzero
  have hbelow : 2 ^ (k + 1) * m + (r + 2 ^ k) < n := by
    have hpos : 1 ≤ 2 ^ c := Nat.one_le_two_pow
    have hle : 2 ^ (k + 1) * (m + 1) ≤ 2 ^ (k + 1) * (m + 2 ^ c) :=
      Nat.mul_le_mul_left _ (by omega)
    have hdouble : 2 ^ (k + 1) = 2 ^ k + 2 ^ k := by rw [Nat.pow_succ]; omega
    rw [Nat.mul_succ] at hle
    omega
  rw [runNetwork_chain_swap (b := k + 1 + c) (by omega) (by rw [hcell]; exact hvalid)
    (by rw [Nat.add_assoc]; exact hR.eq_true hbelow hone)
    (by rw [hcell]; exact hS.eq_false hzero)]
  · rw [hcell]
    exact hS.exchange hr hR hbelow
  · intro b hb hle hn
    obtain ⟨d, rfl⟩ : ∃ d, b = k + 1 + d := ⟨b - (k + 1), by omega⟩
    rw [hcell] at hn ⊢
    exact hS.eq_true hn (hfar d (by omega))

/-- One chain. -/
theorem Merging.step {n k t r m : ℕ} {x : ℕ → Bool} (hr : r < 2 ^ k)
    (h : Merging n k t r m x) :
    Merging n k t r (m + 1) (runNetwork minMax (Lib.chain n k t (2 ^ (k + 1) * m + r)) x) := by
  have hpow : ∀ {a b : ℕ}, a < b → 2 ^ (a + 1) ≤ 2 ^ b := fun hab =>
    Nat.pow_le_pow_right (by decide) hab
  rcases h with ⟨u, v, hu, hv, hle, hbound, hpos⟩ | ⟨u, s, c, hu, hv, hc, hum, hms, hsm, hsu⟩
  · -- an idle chain: its cell holds zero, or no cell it is compared with does
    by_cases hidle : m < v ∨ u ≤ v + 1
    · refine Or.inl ⟨u, v, ?_⟩
      rw [runNetwork_idle]
      · exact ⟨hu, hv, hle, hbound, by omega⟩
      · intro cell hcell
        obtain ⟨b, hb, rfl⟩ := List.mem_map.mp hcell
        obtain ⟨hdesc, hn⟩ := List.mem_filter.mp hb
        have hn := of_decide_eq_true hn
        obtain ⟨d, rfl⟩ : ∃ d, b = k + 1 + d :=
          ⟨b - (k + 1), by have := (mem_descending.mp hdesc).1; omega⟩
        have hd : 1 ≤ 2 ^ d := Nat.one_le_two_pow
        by_cases hmv : m < v
        · left
          have hzero := hv.eq_false hmv
          rwa [← Nat.add_assoc] at hzero
        · right
          have hcell : 2 ^ (k + 1) * m + r + 2 ^ (k + 1 + d) = 2 ^ (k + 1) * (m + 2 ^ d) + r := by
            rw [Nat.pow_add 2 (k + 1) d, Nat.mul_add, Nat.add_right_comm]
          rw [hcell] at hn ⊢
          exact hu.eq_true hn (by omega)
    · -- the first exchange at the largest distance that reaches a zero
      have hm : m = v := by omega
      subst hm
      have hgap : u - m - 1 ≠ 0 := by omega
      have hlog := Nat.pow_log_le_self 2 hgap
      have hlog' := Nat.lt_pow_succ_log_self (b := 2) (by decide) (u - m - 1)
      generalize hc : Nat.log 2 (u - m - 1) = c at hlog hlog'
      have hct : c < t - k := (Nat.pow_lt_pow_iff_right (a := 2) (by decide)).mp (by omega)
      have hz := Zeros.chain hr hu hv hct (m := m) (by omega) (by omega) fun c' hc' => by
        have := hpow hc'
        omega
      by_cases hlast : m + 1 + 2 ^ c < u
      · exact Or.inr ⟨m + 2 ^ c, u, c, hz.1.congr (fun _ => rfl) (fun i => by omega),
          hz.2.congr (fun _ => rfl) (fun i => by omega), hct, by omega, hlast, by omega, by omega⟩
      · have := hpow hct
        rw [Nat.pow_succ] at this
        exact Or.inl ⟨m + 2 ^ c, m + 1, hz.1.congr (fun _ => rfl) (fun i => by omega),
          hz.2.congr (fun _ => rfl) (fun i => by omega),
          by have := Nat.one_le_two_pow (n := c); omega, by omega, by omega⟩
  · -- the exchanges at distance `2 ^ c` go on
    have hz := Zeros.chain hr hu hv hc (m := m) (by omega) (by omega) fun c' hc' => by
      have := hpow hc'
      omega
    have hdouble : 2 ^ (c + 1) = 2 ^ c + 2 ^ c := by rw [Nat.pow_succ]; omega
    by_cases hlast : m + 1 + 2 ^ c < s
    · exact Or.inr ⟨u, s, c, hz.1.congr (fun _ => rfl) (fun i => by omega),
        hz.2.congr (fun _ => rfl) (fun i => by omega), hc, by omega, hlast, by omega, hsu⟩
    · have := hpow hc
      exact Or.inl ⟨u, m + 1, hz.1.congr (fun _ => rfl) (fun i => by omega),
        hz.2.congr (fun _ => rfl) (fun i => by omega), by omega, by omega, by omega⟩

/-- The chains of the cells below `j`. -/
theorem Merging.chains {n k t r : ℕ} {x : ℕ → Bool} (hr : r < 2 ^ k)
    (h : Merging n k t r 0 x) (j : ℕ) :
    Merging n k t r ((j + (2 ^ (k + 1) - 1 - r)) / 2 ^ (k + 1))
      (runNetwork minMax (Lib.chains n k t j) x) := by
  have hdouble : 2 ^ (k + 1) = 2 ^ k + 2 ^ k := by rw [Nat.pow_succ]; omega
  induction j with
  | zero =>
    rw [Nat.zero_add, Nat.div_eq_of_lt (by omega)]
    exact h
  | succ j ih =>
    have hchains : Lib.chains n k t (j + 1) = Lib.chains n k t j ++
        if j % 2 ^ (k + 1) < 2 ^ k then Lib.chain n k t j else [] := by
      rw [Lib.chains, List.range_succ, List.filter_append, List.flatMap_append]
      split_ifs with hj <;> simp [Lib.chains, hj]
    rw [hchains, runNetwork_append]
    have hsplit := Nat.div_add_mod j (2 ^ (k + 1))
    have hmod := Nat.mod_lt j (Nat.two_pow_pos (k + 1))
    by_cases hjr : j % 2 ^ (k + 1) = r
    · have hdiv : (j + (2 ^ (k + 1) - 1 - r)) / 2 ^ (k + 1) = j / 2 ^ (k + 1) := by
        refine Nat.div_eq_of_lt_le ?_ ?_ <;> rw [Nat.mul_comm]
        · omega
        · rw [Nat.mul_succ]
          omega
      have hdiv' : (j + 1 + (2 ^ (k + 1) - 1 - r)) / 2 ^ (k + 1) = j / 2 ^ (k + 1) + 1 := by
        refine Nat.div_eq_of_lt_le ?_ ?_ <;> rw [Nat.mul_comm]
        · rw [Nat.mul_succ]
          omega
        · rw [Nat.mul_succ, Nat.mul_succ]
          omega
      rw [hdiv] at ih
      rw [hdiv', if_pos (by omega)]
      have hstep := ih.step hr
      rwa [show 2 ^ (k + 1) * (j / 2 ^ (k + 1)) + r = j by omega] at hstep
    · have hdiv : (j + 1 + (2 ^ (k + 1) - 1 - r)) / 2 ^ (k + 1) =
          (j + (2 ^ (k + 1) - 1 - r)) / 2 ^ (k + 1) := by
        have hlt := Nat.mod_lt (j + (2 ^ (k + 1) - 1 - r)) (Nat.two_pow_pos (k + 1))
        have hsum := Nat.div_add_mod (j + (2 ^ (k + 1) - 1 - r)) (2 ^ (k + 1))
        have hne : (j + (2 ^ (k + 1) - 1 - r)) % 2 ^ (k + 1) ≠ 2 ^ (k + 1) - 1 := by
          intro heq
          apply hjr
          have hrmod : (j + (2 ^ (k + 1) - 1 - r) + (r + 1)) % 2 ^ (k + 1) =
              (2 ^ (k + 1) - 1 + (r + 1)) % 2 ^ (k + 1) := by
            rw [Nat.add_mod, heq, Nat.add_mod_mod]
          rw [show j + (2 ^ (k + 1) - 1 - r) + (r + 1) = j + 2 ^ (k + 1) by omega,
            show 2 ^ (k + 1) - 1 + (r + 1) = r + 2 ^ (k + 1) by omega, Nat.add_mod_right,
            Nat.add_mod_right, Nat.mod_eq_of_lt (show r < 2 ^ (k + 1) by omega)] at hrmod
          exact hrmod
        refine Nat.div_eq_of_lt_le ?_ ?_ <;> rw [Nat.mul_comm]
        · omega
        · rw [Nat.mul_succ]
          omega
      rw [hdiv]
      split_ifs with hj
      · apply ih.congr
        · intro i
          apply runNetwork_chain_other hj
          · rw [Nat.mul_add_mod, Nat.mod_eq_of_lt (by omega)]
            exact fun h => hjr h.symm
          · rw [Nat.mul_add_mod, Nat.mod_eq_of_lt (by omega)]
            omega
        · intro i
          apply runNetwork_chain_other hj
          · rw [Nat.mul_add_mod, Nat.mod_eq_of_lt (by omega)]
            omega
          · rw [Nat.mul_add_mod, Nat.mod_eq_of_lt (by omega)]
            omega
      · exact ih

/-- After the last chain of a class its cells are in order. -/
theorem Merging.final {n k t r m : ℕ} {x : ℕ → Bool} (h : Merging n k t r m x)
    (hm : n ≤ 2 ^ (k + 1) * m + r) :
    ∃ u v, Zeros n (2 ^ (k + 1)) r x (· < u) ∧ Zeros n (2 ^ (k + 1)) (r + 2 ^ k) x (· < v) ∧
      v ≤ u ∧ u ≤ v + 1 := by
  rcases h with ⟨u, v, hu, hv, hle, -, hpos⟩ | ⟨u, s, c, hu, hv, -, -, hms, -, -⟩
  · refine ⟨u, v, hu, hv, hle, ?_⟩
    by_contra hlt
    have hvalid := hu.valid (m := v) (by omega)
    have hmul := Nat.mul_le_mul_left (2 ^ (k + 1)) (show m ≤ v by omega)
    omega
  · have hvalid := hu.valid (m := m + 2 ^ c) (by omega)
    rw [Nat.mul_add] at hvalid
    omega

/-- A phase halves the distance at which the cells are in order. -/
theorem ordered_phase {n t k : ℕ} (hk : k ≤ t) (hn : n ≤ 2 ^ (t + 1)) {x : ℕ → Bool}
    (h : Ordered n (2 ^ (k + 1)) x) : Ordered n (2 ^ k) (runNetwork minMax (phase n t k) x) := by
  have hdouble : 2 ^ (k + 1) = 2 ^ k + 2 ^ k := by rw [Nat.pow_succ]; omega
  intro i hi
  have hr : i % 2 ^ k < 2 ^ k := Nat.mod_lt _ (Nat.two_pow_pos k)
  have hmerge := Merging.chains hr (Merging.start h hr hk hn) n
  rw [phase, runNetwork_append]
  generalize runNetwork minMax (chains n k t n) (runNetwork minMax (adjacent n k) x) = y at hmerge ⊢
  have hend : n ≤
      2 ^ (k + 1) * ((n + (2 ^ (k + 1) - 1 - i % 2 ^ k)) / 2 ^ (k + 1)) + i % 2 ^ k := by
    have hlt := Nat.mod_lt (n + (2 ^ (k + 1) - 1 - i % 2 ^ k)) (Nat.two_pow_pos (k + 1))
    have hsum := Nat.div_add_mod (n + (2 ^ (k + 1) - 1 - i % 2 ^ k)) (2 ^ (k + 1))
    omega
  obtain ⟨u, v, hu, hv, hle, hle'⟩ := hmerge.final hend
  have hi2 := Nat.div_add_mod i (2 ^ k)
  have hpar := Nat.div_add_mod (i / 2 ^ k) 2
  -- the position of the cell in its class, and which of the two sequences it is in
  have hsplit : i = 2 ^ (k + 1) * (i / 2 ^ k / 2) + i % 2 ^ k + 2 ^ k * (i / 2 ^ k % 2) := by
    have hmul := congrArg (2 ^ k * ·) hpar
    simp only [Nat.mul_add, ← Nat.mul_assoc] at hmul
    rw [Nat.pow_succ]
    omega
  generalize i / 2 ^ k / 2 = m at hsplit
  generalize i % 2 ^ k = r at hsplit hr hu hv
  rcases Nat.mod_two_eq_zero_or_one (i / 2 ^ k) with hpar | hpar <;> rw [hpar] at hsplit
  · rw [Nat.mul_zero, Nat.add_zero] at hsplit
    subst hsplit
    cases hx : y (2 ^ (k + 1) * m + r) with
    | false => exact Bool.false_le _
    | true =>
      have hmu : ¬ m < u := fun hlt => by
        rw [hu.eq_false hlt] at hx
        exact absurd hx Bool.false_ne_true
      rw [Nat.add_assoc, hv.eq_true (by omega) (by omega)]
  · rw [Nat.mul_one] at hsplit
    subst hsplit
    have hnext : 2 ^ (k + 1) * m + r + 2 ^ k + 2 ^ k = 2 ^ (k + 1) * (m + 1) + r := by
      rw [Nat.mul_succ]
      omega
    cases hx : y (2 ^ (k + 1) * m + r + 2 ^ k) with
    | false => exact Bool.false_le _
    | true =>
      have hmv : ¬ m < v := fun hlt => by
        have hzero := hv.eq_false hlt
        rw [← Nat.add_assoc, hx] at hzero
        exact absurd hzero.symm Bool.false_ne_true
      rw [hnext, hu.eq_true (by omega) (by omega)]

/-- Merge exchange sorts. -/
theorem mergeExchange_sorted [LinearOrder α] {n t : ℕ} (hn : n ≤ 2 ^ (t + 1)) (x : ℕ → α) :
    SortedBelow n (runNetwork minMax (mergeExchange n t) x) := by
  refine sorted_of_bool (fun b => ?_) x
  have hphases : ∀ k, k ≤ t + 1 → ∀ b : ℕ → Bool, Ordered n (2 ^ k) b →
      Ordered n 1 (runNetwork minMax (phases n t k) b) := by
    intro k
    induction k with
    | zero => exact fun _ _ hb => hb
    | succ k ih =>
      intro hk b hb
      rw [phases, runNetwork_append]
      exact ih (by omega) _ (ordered_phase (by omega) hn hb)
  exact (hphases (t + 1) le_rfl b fun i hi => absurd hi (by omega)).sorted

/-- Merge exchange permutes. -/
theorem mergeExchange_perm {cmp : Comparison α} (h : IsExchange cmp) (n t : ℕ) (x : ℕ → α) :
    ((List.range n).map (runNetwork cmp (mergeExchange n t) x)).Perm ((List.range n).map x) := by
  obtain ⟨σ, hσ, hrun⟩ := runNetwork_perm h mergeExchange_lt x
  rw [hrun]
  exact map_range_perm hσ x

end SimpleGo.Lib
