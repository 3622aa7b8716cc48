import Mathlib.FieldTheory.Finite.Basic
import Mathlib.FieldTheory.Finiteness
import SimpleGo.Lib.Trinomial

/-!
# A certificate of irreducibility

A polynomial of degree `n` over the integers modulo a prime `q` is irreducible if its quotient
ring has an element `a` with `1 + a + .. + a ^ (l - 1) = 0` for a prime `l` modulo which `q` has
the order `n`: in the field that a factor of degree `d` gives, `a` has order `l`, so `l` divides
`q ^ d - 1`. For `x ^ n = x + 1` the element is checked by a computation with lists of
coefficients. A product of two lists is read off the product of two numbers, of which the
coefficients are the digits to a large base.
-/

namespace SimpleGo.Lib

open Polynomial

/-! ### Lists of coefficients -/

section Horner

variable {A : Type*} [CommSemiring A]

/-- The value of the polynomial with the coefficients of a list, lowest first. -/
def horner (x : A) : List ℕ → A
  | [] => 0
  | c :: l => c + x * horner x l

/-- The sum of two polynomials. -/
def addLists : List ℕ → List ℕ → List ℕ
  | [], l => l
  | c :: k, [] => c :: k
  | c :: k, d :: l => (c + d) :: addLists k l

/-- The product of two polynomials. -/
def mulLists : List ℕ → List ℕ → List ℕ
  | [], _ => []
  | c :: k, l => addLists (l.map (c * ·)) (0 :: mulLists k l)

/-- Lists are added as their values are. -/
theorem horner_addLists (x : A) (k l : List ℕ) :
    horner x (addLists k l) = horner x k + horner x l := by
  induction k generalizing l with
  | nil => exact (zero_add _).symm
  | cons c k ih =>
    cases l with
    | nil => exact (add_zero _).symm
    | cons d l =>
      rw [addLists, horner, horner, horner, ih]
      push_cast
      ring

/-- A factor on every coefficient is one on the value. -/
theorem horner_map_mul (x : A) (c : ℕ) (l : List ℕ) :
    horner x (l.map (c * ·)) = c * horner x l := by
  induction l with
  | nil => exact (mul_zero _).symm
  | cons d l ih =>
    rw [List.map_cons, horner, horner, ih]
    push_cast
    ring

/-- Lists are multiplied as their values are. -/
theorem horner_mulLists (x : A) (k l : List ℕ) :
    horner x (mulLists k l) = horner x k * horner x l := by
  induction k with
  | nil => exact (zero_mul _).symm
  | cons c k ih =>
    rw [mulLists, horner_addLists, horner_map_mul, horner, horner, ih, Nat.cast_zero]
    ring

/-- The value of a list in two parts. -/
theorem horner_take_drop (x : A) (n : ℕ) (l : List ℕ) :
    horner x l = horner x (l.take n) + x ^ n * horner x (l.drop n) := by
  induction n generalizing l with
  | zero => rw [List.take_zero, List.drop_zero, pow_zero, one_mul, horner, zero_add]
  | succ n ih =>
    cases l with
    | nil => simp [horner]
    | cons c l =>
      rw [List.take_succ_cons, List.drop_succ_cons, horner, horner, ih l, pow_succ]
      ring

/-- Zeros have the value zero. -/
theorem horner_replicate_zero (x : A) (n : ℕ) : horner x (List.replicate n 0) = 0 := by
  induction n with
  | zero => rfl
  | succ n ih => rw [List.replicate_succ, horner, ih, Nat.cast_zero, mul_zero, add_zero]

/-- The coefficients may be reduced where `q` is zero. -/
theorem horner_map_mod {q : ℕ} (hq : (q : A) = 0) (x : A) (l : List ℕ) :
    horner x (l.map (· % q)) = horner x l := by
  induction l with
  | nil => rfl
  | cons c l ih =>
    have hc : (c : A) = (c % q : ℕ) := by
      conv_lhs => rw [← Nat.mod_add_div c q]
      rw [Nat.cast_add, Nat.cast_mul, hq, zero_mul, add_zero]
    rw [List.map_cons, horner, horner, ih, hc]

end Horner

/-- A sum is as long as the longer list. -/
theorem length_addLists (k l : List ℕ) : (addLists k l).length = max k.length l.length := by
  induction k generalizing l with
  | nil => simp [addLists]
  | cons c k ih =>
    cases l with
    | nil => simp [addLists]
    | cons d l => simp only [addLists, List.length_cons, ih]; omega

/-- Bounds of coefficients are added. -/
theorem le_of_mem_addLists {k l : List ℕ} {a b : ℕ} (hk : ∀ c ∈ k, c ≤ a) (hl : ∀ c ∈ l, c ≤ b) :
    ∀ c ∈ addLists k l, c ≤ a + b := by
  induction k generalizing l with
  | nil => exact fun c hc => (hl c hc).trans (Nat.le_add_left _ _)
  | cons d k ih =>
    cases l with
    | nil => exact fun c hc => (hk c hc).trans (Nat.le_add_right _ _)
    | cons e l =>
      rw [List.forall_mem_cons] at hk hl
      rw [addLists, List.forall_mem_cons]
      exact ⟨Nat.add_le_add hk.1 hl.1, ih hk.2 hl.2⟩

/-- A product is at most as long as the two lists together. -/
theorem length_mulLists_le (k : List ℕ) {l : List ℕ} (hl : 0 < l.length) :
    (mulLists k l).length ≤ k.length + (l.length - 1) := by
  induction k with
  | nil => exact Nat.zero_le _
  | cons c k ih =>
    rw [mulLists, length_addLists, List.length_map, List.length_cons, List.length_cons]
    omega

/-- A product is at least as long as its second list. -/
theorem length_le_mulLists {k l : List ℕ} (hk : 0 < k.length) :
    l.length ≤ (mulLists k l).length := by
  cases k with
  | nil => exact absurd hk (lt_irrefl _)
  | cons c k => rw [mulLists, length_addLists, List.length_map]; exact Nat.le_max_left _ _

/-- No coefficient of a product exceeds the sum of the products it is made of. -/
theorem le_of_mem_mulLists {k l : List ℕ} {a b : ℕ} (hk : ∀ c ∈ k, c ≤ a) (hl : ∀ c ∈ l, c ≤ b) :
    ∀ c ∈ mulLists k l, c ≤ k.length * (a * b) := by
  induction k with
  | nil => exact fun c hc => absurd hc List.not_mem_nil
  | cons d k ih =>
    rw [List.forall_mem_cons] at hk
    have hfst : ∀ c ∈ l.map (d * ·), c ≤ a * b := by
      intro c hc
      obtain ⟨e, he, rfl⟩ := List.mem_map.mp hc
      exact Nat.mul_le_mul hk.1 (hl e he)
    have hrest : ∀ c ∈ 0 :: mulLists k l, c ≤ k.length * (a * b) :=
      List.forall_mem_cons.mpr ⟨Nat.zero_le _, ih hk.2⟩
    intro c hc
    have hle := le_of_mem_addLists hfst hrest c hc
    rw [List.length_cons, Nat.succ_mul]
    omega

/-! ### Packed products -/

/-- The number with given digits to the base `B`. -/
def pack (B : ℕ) : List ℕ → ℕ
  | [] => 0
  | c :: l => c + B * pack B l

/-- The lowest digits of a number. -/
def digits (B : ℕ) : (count : ℕ) → ℕ → List ℕ
  | 0, _ => []
  | count + 1, N => N % B :: digits B count (N / B)

/-- A packed list is its value at the base. -/
theorem pack_eq_horner (B : ℕ) (l : List ℕ) : pack B l = horner B l := by
  induction l with
  | nil => rfl
  | cons c l ih => rw [pack, horner, ih, Nat.cast_id]

/-- The number of digits is the one asked for. -/
theorem length_digits (B count N : ℕ) : (digits B count N).length = count := by
  induction count generalizing N with
  | zero => rfl
  | succ count ih => rw [digits, List.length_cons, ih]

/-- The digits of a packed list stand for the same polynomial. -/
theorem horner_digits_pack {A : Type*} [CommSemiring A] (x : A) {B count : ℕ} {l : List ℕ}
    (hlen : l.length ≤ count) (hlt : ∀ c ∈ l, c < B) :
    horner x (digits B count (pack B l)) = horner x l := by
  induction count generalizing l with
  | zero => rw [List.length_eq_zero_iff.mp (Nat.le_zero.mp hlen)]; rfl
  | succ count ih =>
    cases l with
    | nil =>
      have hrest : horner x (digits B count (pack B [])) = 0 :=
        ih (Nat.zero_le _) fun c hc => absurd hc List.not_mem_nil
      rw [digits, pack, Nat.zero_mod, Nat.zero_div, horner, horner, Nat.cast_zero, zero_add]
      rw [pack] at hrest
      rw [hrest, mul_zero]
    | cons c l =>
      rw [List.forall_mem_cons] at hlt
      have hpos : 0 < B := Nat.zero_lt_of_lt hlt.1
      rw [digits, pack, Nat.add_mul_mod_self_left, Nat.mod_eq_of_lt hlt.1,
        Nat.add_mul_div_left _ _ hpos, Nat.div_eq_of_lt hlt.1, Nat.zero_add, horner, horner,
        ih (Nat.le_of_succ_le_succ hlen) hlt.2]

/-- A packed list has as many digits as the list. -/
theorem pack_lt {B : ℕ} {l : List ℕ} (hlt : ∀ c ∈ l, c < B) : pack B l < B ^ l.length := by
  induction l with
  | nil => exact Nat.one_pos
  | cons c l ih =>
    rw [List.forall_mem_cons] at hlt
    have hrest := Nat.mul_le_mul_left B (Nat.succ_le_of_lt (ih hlt.2))
    rw [pack, List.length_cons, pow_succ, Nat.mul_comm (B ^ l.length)]
    rw [Nat.mul_succ] at hrest
    omega

/-- A packed list is cut in two by a division. -/
theorem pack_split {B n : ℕ} (hB : 0 < B) {l : List ℕ} (hlt : ∀ c ∈ l, c < B)
    (hlen : n ≤ l.length) :
    pack B l % B ^ n = pack B (l.take n) ∧ pack B l / B ^ n = pack B (l.drop n) := by
  have hsplit : pack B l = pack B (l.take n) + B ^ n * pack B (l.drop n) := by
    rw [pack_eq_horner, pack_eq_horner, pack_eq_horner]
    exact horner_take_drop _ n l
  have hlow : pack B (l.take n) < B ^ n := by
    have hlow := pack_lt fun c hc => hlt c (List.mem_of_mem_take (i := n) hc)
    rwa [List.length_take, Nat.min_eq_left hlen] at hlow
  rw [hsplit]
  constructor
  · rw [Nat.add_mul_mod_self_left, Nat.mod_eq_of_lt hlow]
  · rw [Nat.add_mul_div_left _ _ (Nat.pow_pos hB), Nat.div_eq_of_lt hlow, Nat.zero_add]

/-- The upper half is folded back with `x ^ n = x + 1`. -/
def foldBack (n : ℕ) (t : List ℕ) : List ℕ :=
  addLists (addLists (t.take n) (t.drop n)) (0 :: t.drop n)

/-- The same for a packed list. -/
def foldPacked (n B N : ℕ) : ℕ := N % B ^ n + N / B ^ n + B * (N / B ^ n)

/-- `n` residues modulo `q`. -/
def Residues (n q : ℕ) (l : List ℕ) : Prop := l.length = n ∧ ∀ c ∈ l, c < q

/-- The product modulo `x ^ n = x + 1` and `q`, through the base `B`. -/
def mulResidues (n q B : ℕ) (k l : List ℕ) : List ℕ :=
  (digits B n (foldPacked n B (pack B k * pack B l))).map (· % q)

/-- The sum modulo `q`. -/
def addResidues (q : ℕ) (k l : List ℕ) : List ℕ := (addLists k l).map (· % q)

section Residues

variable {A : Type*} [CommSemiring A] {x : A} {n q B : ℕ} {k l : List ℕ}

/-- Reduced coefficients lie below the modulus. -/
theorem mem_map_mod (hq : 0 < q) (l : List ℕ) : ∀ c ∈ l.map (· % q), c < q := by
  intro c hc
  obtain ⟨d, -, rfl⟩ := List.mem_map.mp hc
  exact Nat.mod_lt d hq

/-- Folding back keeps the value at a root. -/
theorem horner_foldBack (hx : x ^ n = x + 1) (t : List ℕ) :
    horner x (foldBack n t) = horner x t := by
  rw [foldBack, horner_addLists, horner_addLists, horner, horner_take_drop x n t, hx, Nat.cast_zero]
  ring

/-- Folding back on the packed number. -/
theorem pack_foldBack (hB : 0 < B) {t : List ℕ} (hlt : ∀ c ∈ t, c < B) (hlen : n ≤ t.length) :
    pack B (foldBack n t) = foldPacked n B (pack B t) := by
  obtain ⟨hlow, hhigh⟩ := pack_split hB hlt hlen
  rw [foldPacked, hlow, hhigh, foldBack]
  simp only [pack_eq_horner]
  rw [horner_addLists, horner_addLists, horner, Nat.cast_zero, zero_add]

/-- One product of numbers gives the product of the polynomials. -/
theorem mulResidues_spec (hn : 0 < n) (hq : 0 < q) (hB : 3 * (n * (q * q)) < B)
    (hx : x ^ n = x + 1) (hqx : (q : A) = 0) (hk : Residues n q k) (hl : Residues n q l) :
    Residues n q (mulResidues n q B k l) ∧
      horner x (mulResidues n q B k l) = horner x k * horner x l := by
  have hpack : pack B k * pack B l = pack B (mulLists k l) := by
    rw [pack_eq_horner, pack_eq_horner, pack_eq_horner, horner_mulLists]
  have hlenLe := length_mulLists_le k (show 0 < l.length by rw [hl.1]; exact hn)
  have hlenGe := length_le_mulLists (l := l) (show 0 < k.length by rw [hk.1]; exact hn)
  have hle := le_of_mem_mulLists (fun c hc => (hk.2 c hc).le) fun c hc => (hl.2 c hc).le
  rw [hk.1] at hle hlenLe
  rw [hl.1] at hlenLe hlenGe
  have hfold : ∀ c ∈ foldBack n (mulLists k l), c < B := by
    intro c hc
    have hdrop : ∀ c ∈ (mulLists k l).drop n, c ≤ n * (q * q) := fun c hc =>
      hle c (List.mem_of_mem_drop hc)
    have hsum := le_of_mem_addLists (le_of_mem_addLists
      (fun c hc => hle c (List.mem_of_mem_take hc)) hdrop)
      (List.forall_mem_cons.mpr ⟨Nat.zero_le _, hdrop⟩) c hc
    omega
  have hlen : (foldBack n (mulLists k l)).length ≤ n := by
    rw [foldBack, length_addLists, length_addLists, List.length_cons, List.length_take,
      List.length_drop]
    omega
  have hlt : ∀ c ∈ mulLists k l, c < B := by
    intro c hc
    have := hle c hc
    omega
  rw [mulResidues, hpack, ← pack_foldBack (by omega) hlt hlenGe]
  constructor
  · exact ⟨by rw [List.length_map, length_digits], mem_map_mod hq _⟩
  · rw [horner_map_mod hqx, horner_digits_pack x hlen hfold, horner_foldBack hx, horner_mulLists]

/-- Residues are added modulo `q`. -/
theorem addResidues_spec (hq : 0 < q) (hqx : (q : A) = 0) (hk : Residues n q k)
    (hl : Residues n q l) : Residues n q (addResidues q k l) ∧
      horner x (addResidues q k l) = horner x k + horner x l := by
  constructor
  · constructor
    · rw [addResidues, List.length_map, length_addLists, hk.1, hl.1, Nat.max_self]
    · exact mem_map_mod hq _
  · rw [addResidues, horner_map_mod hqx, horner_addLists]

/-- `a ^ k` and `1 + a + .. + a ^ (k - 1)`, from the bits of `k`, lowest first. -/
def powerSum (n q B : ℕ) (a : List ℕ) : List Bool → List ℕ × List ℕ
  | [] => (1 :: List.replicate (n - 1) 0, List.replicate n 0)
  | bit :: bits =>
    let (power, sum) := powerSum n q B a bits
    let sum := addResidues q sum (mulResidues n q B power sum)
    let power := mulResidues n q B power power
    if bit then (mulResidues n q B power a, addResidues q sum power) else (power, sum)

/-- The number with given bits, lowest first. -/
def ofBits : List Bool → ℕ
  | [] => 0
  | bit :: bits => 2 * ofBits bits + bit.toNat

/-- A geometric sum of twice the length, in two halves. -/
theorem sum_range_double (a : A) (k : ℕ) : ∑ i ∈ Finset.range (2 * k), a ^ i =
    ∑ i ∈ Finset.range k, a ^ i + a ^ k * ∑ i ∈ Finset.range k, a ^ i := by
  rw [two_mul, Finset.sum_range_add, Finset.mul_sum]
  simp only [pow_add]

/-- The power and the geometric sum for an exponent given by its bits. -/
theorem powerSum_spec (hn : 0 < n) (hq : 1 < q) (hB : 3 * (n * (q * q)) < B) (hx : x ^ n = x + 1)
    (hqx : (q : A) = 0) {a : List ℕ} (ha : Residues n q a) (bits : List Bool) :
    Residues n q (powerSum n q B a bits).1 ∧ Residues n q (powerSum n q B a bits).2 ∧
      horner x (powerSum n q B a bits).1 = horner x a ^ ofBits bits ∧
      horner x (powerSum n q B a bits).2 =
        ∑ i ∈ Finset.range (ofBits bits), horner x a ^ i := by
  have hq0 : 0 < q := Nat.zero_lt_of_lt hq
  induction bits with
  | nil =>
    refine ⟨⟨?_, ?_⟩, ⟨List.length_replicate, ?_⟩, ?_, horner_replicate_zero x n⟩
    · rw [powerSum, List.length_cons, List.length_replicate]
      omega
    · exact List.forall_mem_cons.mpr ⟨hq, fun c hc => List.eq_of_mem_replicate hc ▸ hq0⟩
    · exact fun c hc => List.eq_of_mem_replicate hc ▸ hq0
    · rw [powerSum, horner, horner_replicate_zero, ofBits, pow_zero, Nat.cast_one, mul_zero,
        add_zero]
  | cons bit bits ih =>
    obtain ⟨hpower, hsum, hpowerVal, hsumVal⟩ := ih
    rw [powerSum, ofBits]
    simp only
    generalize powerSum n q B a bits = s at *
    obtain ⟨hprod, hprodVal⟩ := mulResidues_spec hn hq0 hB hx hqx hpower hsum
    obtain ⟨hsum2, hsum2Val⟩ := addResidues_spec (x := x) hq0 hqx hsum hprod
    obtain ⟨hpower2, hpower2Val⟩ := mulResidues_spec hn hq0 hB hx hqx hpower hpower
    rw [hprodVal, hpowerVal, hsumVal, ← sum_range_double] at hsum2Val
    rw [hpowerVal, ← pow_add, ← two_mul] at hpower2Val
    cases bit with
    | false => exact ⟨hpower2, hsum2, hpower2Val, hsum2Val⟩
    | true =>
      obtain ⟨hnext, hnextVal⟩ := mulResidues_spec hn hq0 hB hx hqx hpower2 ha
      obtain ⟨hsum3, hsum3Val⟩ := addResidues_spec (x := x) hq0 hqx hsum2 hpower2
      refine ⟨hnext, hsum3, ?_, ?_⟩
      · rw [Bool.toNat_true, pow_succ, ← hpower2Val]
        exact hnextVal
      · rw [Bool.toNat_true, Finset.sum_range_succ, ← hsum2Val, ← hpower2Val]
        exact hsum3Val

end Residues

/-! ### Irreducibility -/

section Irreducible

variable {q l n : ℕ} [Fact q.Prime] [Fact l.Prime]

/-- The field of an irreducible polynomial of degree `d` has `q ^ d` elements. -/
theorem natCard_adjoinRoot {f : (ZMod q)[X]} (hf : f ≠ 0) :
    Nat.card (AdjoinRoot f) = q ^ f.natDegree := by
  have : Module.Finite (ZMod q) (AdjoinRoot f) := (AdjoinRoot.powerBasis hf).finite
  rw [Module.natCard_eq_pow_finrank (K := ZMod q), Nat.card_zmod,
    (AdjoinRoot.powerBasis hf).finrank, AdjoinRoot.powerBasis_dim]

/-- A root of unity of prime order `l` in a finite field of `q ^ d` elements. -/
theorem pow_eq_one_of_geom_sum {K : Type*} [Field K] [Finite K] [Algebra (ZMod q) K] {d : ℕ}
    (hcard : Nat.card K = q ^ d) (hql : q ≠ l) {b : K} (hsum : ∑ i ∈ Finset.range l, b ^ i = 0) :
    (q : ZMod l) ^ d = 1 := by
  have hchar : CharP K q := charP_of_injective_algebraMap (algebraMap (ZMod q) K).injective q
  have hpow : b ^ l = 1 := by
    rw [← sub_eq_zero, ← geom_sum_mul, hsum, zero_mul]
  have hne : b ≠ 1 := by
    rintro rfl
    simp only [one_pow, Finset.sum_const, Finset.card_range, nsmul_eq_mul, mul_one] at hsum
    have hdvd := (CharP.cast_eq_zero_iff K q l).mp hsum
    exact hql ((Nat.prime_dvd_prime_iff_eq Fact.out Fact.out).mp hdvd)
  have hzero : b ≠ 0 := by
    rintro rfl
    rw [zero_pow (Fact.out : l.Prime).ne_zero] at hpow
    exact zero_ne_one hpow
  have horder : orderOf b = l := orderOf_eq_prime hpow hne
  have := Fintype.ofFinite K
  have hone := FiniteField.pow_card_sub_one_eq_one b hzero
  rw [← Nat.card_eq_fintype_card, hcard] at hone
  have hdvd : l ∣ q ^ d - 1 := horder ▸ orderOf_dvd_of_pow_eq_one hone
  have hpos : 0 < q ^ d := Nat.pow_pos (Fact.out : q.Prime).pos
  have hcast : ((q ^ d - 1 + 1 : ℕ) : ZMod l) = 1 := by
    rw [Nat.cast_add, (ZMod.natCast_eq_zero_iff _ _).mpr hdvd, zero_add, Nat.cast_one]
  rwa [Nat.sub_add_cancel hpos, Nat.cast_pow] at hcast

/-- The certificate. -/
theorem irreducible_of_geom_sum {f : (ZMod q)[X]} (hdeg : f.natDegree = n)
    (horder : orderOf (q : ZMod l) = n) (hn : 0 < n) (hql : q ≠ l) (a : AdjoinRoot f)
    (hsum : ∑ i ∈ Finset.range l, a ^ i = 0) : Irreducible f := by
  have hf : f ≠ 0 := by
    rintro rfl
    rw [natDegree_zero] at hdeg
    omega
  obtain ⟨g, hg, hgf⟩ := WfDvdMonoid.exists_irreducible_factor
    (fun hunit => by have := natDegree_eq_zero_of_isUnit hunit; omega) hf
  have : Fact (Irreducible g) := ⟨hg⟩
  have hcard := natCard_adjoinRoot hg.ne_zero
  have hfinite : Finite (AdjoinRoot g) := Nat.finite_of_card_ne_zero (by
    rw [hcard]
    exact (Nat.pow_pos (Fact.out : q.Prime).pos).ne')
  have himage : ∑ i ∈ Finset.range l, AdjoinRoot.algHomOfDvd (ZMod q) f g hgf a ^ i = 0 := by
    simp only [← map_pow, ← map_sum, hsum, map_zero]
  have hone := pow_eq_one_of_geom_sum hcard hql himage
  have hdvd : n ∣ g.natDegree := horder ▸ orderOf_dvd_of_pow_eq_one hone
  have hle : f.natDegree ≤ g.natDegree := hdeg ▸ Nat.le_of_dvd hg.natDegree_pos hdvd
  exact (associated_of_dvd_of_natDegree_le hgf hf hle).irreducible hg

/-- The certificate for `x ^ n - x - 1`, as a computation. -/
theorem irreducible_of_powerSum {B : ℕ} {a : List ℕ} {bits : List Bool} (hn : 1 < n)
    (ha : Residues n q a) (hB : 3 * (n * (q * q)) < B) (hbits : ofBits bits = l)
    (horder : orderOf (q : ZMod l) = n) (hql : q ≠ l)
    (hsum : (powerSum n q B a bits).2 = List.replicate n 0) :
    Irreducible (X ^ n - X - 1 : (ZMod q)[X]) := by
  have hq : (q : TrinomialRing q n) = 0 := by
    rw [← map_natCast (algebraMap (ZMod q) _), ZMod.natCast_self, map_zero]
  obtain ⟨-, -, -, hval⟩ := powerSum_spec (Nat.zero_lt_of_lt hn) (Fact.out : q.Prime).one_lt hB
    (trinomialRoot_pow q n) hq ha bits
  rw [hsum, horner_replicate_zero, hbits] at hval
  exact irreducible_of_geom_sum (natDegree_trinomial (Fact.out : q.Prime).one_lt hn) horder
    (Nat.zero_lt_of_lt hn) hql _ hval.symm

/-- In the field of an irreducible polynomial everything but zero is a unit. -/
theorem isUnit_of_ne_zero {f : (ZMod q)[X]} (hf : Irreducible f) {a : AdjoinRoot f} (ha : a ≠ 0) :
    IsUnit a := by
  have : Fact (Irreducible f) := ⟨hf⟩
  exact IsUnit.mk0 a ha

/-- The units are the values of the sequences that are not zero modulo `q`. -/
theorem isUnit_value_iff (hirr : Irreducible (X ^ n - X - 1 : (ZMod q)[X])) (hn : 1 < n)
    {f : ℕ → ℤ} :
    IsUnit (value (trinomialRoot q n) n f) ↔ ∃ i < n, (f i : ZMod q) ≠ 0 := by
  have : Fact (Irreducible (X ^ n - X - 1 : (ZMod q)[X])) := ⟨hirr⟩
  have hnil : value (trinomialRoot q n) n (fun _ => 0) = 0 := by simp [value]
  constructor
  · intro hunit
    by_contra hzero
    apply hunit.ne_zero
    rw [← hnil]
    apply value_congr (m := q)
    intro i hi
    rw [not_not.mp fun h => hzero ⟨i, hi, h⟩, Int.cast_zero]
  · rintro ⟨i, hi, hne⟩
    apply isUnit_of_ne_zero hirr
    intro hzero
    apply hne
    rw [← hnil] at hzero
    rw [modEq_of_value_eq (Fact.out : q.Prime).one_lt hn hzero hi, Int.cast_zero]

end Irreducible

end SimpleGo.Lib
