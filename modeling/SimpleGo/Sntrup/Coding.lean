import Mathlib.Data.List.Forall2
import Mathlib.Data.List.GetD
import Mathlib.Tactic.Linarith
import SimpleGo.Sntrup.Multiply

/-!
# The encodings

A key or ciphertext packs 761 residues into bytes in a mixed radix: neighbours are joined two at
a time, one or two bytes are split off every joint number, and the numbers that remain are
joined again until one is left. The tables of the generated code are lists of `Pair`s, one list
a level. The decoder divides by multiplying with `2 ^ 31 / m` and correcting twice, which is
exact for every `uint32` dividend (`uint32DivmodUint14_spec`). What the encoder writes the decoder reads
back (`decodeLevels_encodeLevels`), and no input makes the decoder leave the range.
-/

namespace SimpleGo.Sntrup

open Lib

/-! ### Division -/

/-- `uint32_divmod_uint14`. -/
def uint32DivmodUint14 (x : UInt32) (m : UInt16) : UInt32 × UInt16 :=
  let v : UInt32 := 0x80000000 / m.toUInt32
  let qpart := ((x.toUInt64 * v.toUInt64) >>> 31).toUInt32
  let x := x - qpart * m.toUInt32
  let q := qpart
  let qpart := ((x.toUInt64 * v.toUInt64) >>> 31).toUInt32
  let x := x - qpart * m.toUInt32
  let q := q + qpart
  let x := x - m.toUInt32
  let q := q + 1
  let mask := ~~~(x >>> 31) + 1
  let x := x + (mask &&& m.toUInt32)
  let q := q + mask
  (q, x.toUInt16)

/-- `uint32_mod_uint14`. -/
def uint32ModUint14 (x : UInt32) (m : UInt16) : UInt16 := (uint32DivmodUint14 x m).2

/-- One round of the approximate division, in the terms of the comments of the source. -/
theorem divmod_round {x m v : ℕ} (hvm : v * m ≤ 2 ^ 31) (hvm' : 2 ^ 31 ≤ v * m + m - 1)
    (hm : 0 < m) : x * v / 2 ^ 31 * m ≤ x ∧
      2 ^ 31 * (x - x * v / 2 ^ 31 * m) ≤ x * (m - 1) + (2 ^ 31 - 1) * m := by
  set q := x * v / 2 ^ 31 with hq
  have hlow : q * 2 ^ 31 ≤ x * v := Nat.div_mul_le_self _ _
  have hhigh : x * v ≤ q * 2 ^ 31 + (2 ^ 31 - 1) := by
    have := Nat.lt_div_mul_add (a := x * v) (b := 2 ^ 31) (by norm_num)
    omega
  have hle : q * m ≤ x := by
    have h1 : q * m * 2 ^ 31 ≤ x * 2 ^ 31 :=
      calc q * m * 2 ^ 31 = q * 2 ^ 31 * m := by ring
        _ ≤ x * v * m := Nat.mul_le_mul_right m hlow
        _ = x * (v * m) := by ring
        _ ≤ x * 2 ^ 31 := Nat.mul_le_mul_left x hvm
    exact Nat.le_of_mul_le_mul_right h1 (by norm_num)
  refine ⟨hle, ?_⟩
  obtain ⟨y, hy⟩ : ∃ y, x = q * m + y := ⟨x - q * m, by omega⟩
  obtain ⟨k, hk⟩ : ∃ k, m = k + 1 := ⟨m - 1, by omega⟩
  have h2 : x * v * m ≤ (q * 2 ^ 31 + (2 ^ 31 - 1)) * m := Nat.mul_le_mul_right m hhigh
  have h3 : x * 2 ^ 31 ≤ x * (v * m + k) := Nat.mul_le_mul_left x (by omega)
  rw [show x - q * m = y by omega, show m - 1 = k by omega]
  nlinarith

/-- The product with the approximate inverse, shifted, as a number. -/
theorem toNat_qpart {x v : UInt32} (hv : v.toNat ≤ 2 ^ 31) :
    ((x.toUInt64 * v.toUInt64) >>> 31).toUInt32.toNat = x.toNat * v.toNat / 2 ^ 31 := by
  have hx := x.toNat_lt
  have hprod : x.toNat * v.toNat ≤ (2 ^ 32 - 1) * 2 ^ 31 := Nat.mul_le_mul (by omega) hv
  simp only [UInt64.toNat_toUInt32, UInt64.toNat_shiftRight, UInt64.toNat_mul,
    UInt32.toNat_toUInt64, UInt64.reduceToNat, Nat.reduceMod, Nat.shiftRight_eq_div_pow]
  rw [Nat.mod_eq_of_lt (a := x.toNat * v.toNat) (by omega), Nat.mod_eq_of_lt (by omega)]

/-- What the approximate quotient leaves. -/
theorem toNat_reduced {x qpart : UInt32} {m : UInt16} (h : qpart.toNat * m.toNat ≤ x.toNat) :
    (x - qpart * m.toUInt32).toNat = x.toNat - qpart.toNat * m.toNat := by
  have hx := x.toNat_lt
  have hprod : (qpart * m.toUInt32).toNat = qpart.toNat * m.toNat := by
    rw [UInt32.toNat_mul, UInt16.toNat_toUInt32, Nat.mod_eq_of_lt (by omega)]
  rw [UInt32.toNat_sub_of_le _ _ (UInt32.le_iff_toNat_le.mpr (by rw [hprod]; exact h)), hprod]

/-- The correction at the end: a remainder equal to the divisor counts once more. -/
theorem last_correction {x q : UInt32} {m : UInt16} (hx : x.toNat ≤ m.toNat)
    (hm : 0 < m.toNat) (hm' : m.toNat < 16384) (hq : x.toNat = m.toNat → q.toNat + 1 < 2 ^ 32) :
    let y := x - m.toUInt32
    let mask := ~~~(y >>> 31) + 1
    (q + 1 + mask).toNat = q.toNat + x.toNat / m.toNat ∧
      (y + (mask &&& m.toUInt32)).toUInt16.toNat = x.toNat % m.toNat := by
  intro y mask
  have hmNat : m.toUInt32.toNat = m.toNat := UInt16.toNat_toUInt32 m
  have hy : y.toNat = (2 ^ 32 - m.toNat + x.toNat) % 2 ^ 32 := by rw [UInt32.toNat_sub, hmNat]
  rcases Nat.lt_or_ge x.toNat m.toNat with hlt | hge
  · have hshift : y >>> 31 = 1 := by
      apply UInt32.toNat_inj.mp
      rw [UInt32.toNat_shiftRight, hy]
      simp only [UInt32.reduceToNat, Nat.reduceMod, Nat.shiftRight_eq_div_pow]
      omega
    have hmask : mask = -1 := by
      rw [show mask = ~~~(y >>> 31) + 1 from rfl, hshift]
      rfl
    rw [hmask, UInt32.neg_one_and, Nat.div_eq_of_lt hlt, Nat.mod_eq_of_lt hlt]
    constructor
    · rw [UInt32.add_assoc, show (1 : UInt32) + -1 = 0 from rfl, UInt32.add_zero, Nat.add_zero]
    · rw [UInt32.toNat_toUInt16, UInt32.toNat_add, hmNat, hy]
      omega
  · have heq : x.toNat = m.toNat := le_antisymm hx hge
    have hzero : y = 0 := by
      apply UInt32.toNat_inj.mp
      rw [hy, heq]
      have := m.toNat_lt
      rw [show 2 ^ 32 - m.toNat + m.toNat = 2 ^ 32 by omega]
      rfl
    have hmask : mask = 0 := by
      rw [show mask = ~~~(y >>> 31) + 1 from rfl, hzero]
      rfl
    rw [hmask, hzero, heq, Nat.div_self hm, Nat.mod_self, UInt32.add_zero, UInt32.toNat_add,
      UInt32.zero_and]
    exact ⟨Nat.mod_eq_of_lt (hq heq), rfl⟩

/-- The division is exact. -/
theorem uint32DivmodUint14_spec (x : UInt32) {m : UInt16} (hm : 0 < m.toNat)
    (hm' : m.toNat < 16384) :
    (uint32DivmodUint14 x m).1.toNat = x.toNat / m.toNat ∧
      (uint32DivmodUint14 x m).2.toNat = x.toNat % m.toNat := by
  have hxlt := x.toNat_lt
  set v : UInt32 := 0x80000000 / m.toUInt32 with hv
  have hvNat : v.toNat = 2 ^ 31 / m.toNat := by
    rw [hv, UInt32.toNat_div, UInt16.toNat_toUInt32]
    rfl
  have hvm : v.toNat * m.toNat ≤ 2 ^ 31 := by
    rw [hvNat]
    exact Nat.div_mul_le_self _ _
  have hvm' : 2 ^ 31 ≤ v.toNat * m.toNat + m.toNat - 1 := by
    have := Nat.lt_div_mul_add (a := 2 ^ 31) (b := m.toNat) hm
    rw [hvNat]
    omega
  have hvle : v.toNat ≤ 2 ^ 31 := le_trans (Nat.le_mul_of_pos_right _ hm) hvm
  -- the first round
  set q1 := ((x.toUInt64 * v.toUInt64) >>> 31).toUInt32 with hq1
  have hq1Nat : q1.toNat = x.toNat * v.toNat / 2 ^ 31 := toNat_qpart hvle
  obtain ⟨hle1, hbound1⟩ := divmod_round (x := x.toNat) hvm hvm' hm
  rw [← hq1Nat] at hle1 hbound1
  set x1 := x - q1 * m.toUInt32 with hx1
  have hx1Nat : x1.toNat = x.toNat - q1.toNat * m.toNat := toNat_reduced hle1
  have hx1le : x1.toNat ≤ 49146 := by
    have h1 : x.toNat * (m.toNat - 1) ≤ (2 ^ 32 - 1) * 16382 :=
      Nat.mul_le_mul (by omega) (by omega)
    omega
  -- the second round
  set q2 := ((x1.toUInt64 * v.toUInt64) >>> 31).toUInt32 with hq2
  have hq2Nat : q2.toNat = x1.toNat * v.toNat / 2 ^ 31 := toNat_qpart hvle
  obtain ⟨hle2, hbound2⟩ := divmod_round (x := x1.toNat) hvm hvm' hm
  rw [← hq2Nat] at hle2 hbound2
  set x2 := x1 - q2 * m.toUInt32 with hx2
  have hx2Nat : x2.toNat = x1.toNat - q2.toNat * m.toNat := toNat_reduced hle2
  have hx2le : x2.toNat ≤ m.toNat := by
    have h1 : x1.toNat * (m.toNat - 1) ≤ 49146 * 16382 := Nat.mul_le_mul hx1le (by omega)
    omega
  have hsum : x.toNat = (q1.toNat + q2.toNat) * m.toNat + x2.toNat := by
    rw [Nat.add_mul]
    omega
  have hle : q1.toNat + q2.toNat ≤ x.toNat :=
    le_trans (Nat.le_mul_of_pos_right _ hm) (by omega)
  have hq : (q1 + q2).toNat = q1.toNat + q2.toNat := by
    rw [UInt32.toNat_add, Nat.mod_eq_of_lt (by omega)]
  have hlast := last_correction (q := q1 + q2) hx2le hm hm' fun heq => by
    have h1 : q1.toNat + q2.toNat + 1 ≤ (q1.toNat + q2.toNat + 1) * m.toNat :=
      Nat.le_mul_of_pos_right _ hm
    rw [Nat.add_mul (q1.toNat + q2.toNat), Nat.one_mul] at h1
    omega
  rw [hq] at hlast
  rw [hsum, Nat.mul_add_mod', Nat.mul_comm _ m.toNat, Nat.mul_add_div hm]
  exact hlast

/-! ### The mixed radix -/

/-- Two neighbours `r0 < m` and `r1 < top` of a level, joined to `r0 + r1 * m`, of which `bytes`
bytes are written. -/
structure Pair where
  m : ℕ
  bytes : ℕ
  top : ℕ

/-- `*out++ = (unsigned char) r2; r2 >>= 8`, `count` times. -/
def emit : (count : ℕ) → (r2 : UInt32) → List UInt8 × UInt32
  | 0, r2 => ([], r2)
  | count + 1, r2 =>
    let (out, rest) := emit count (r2 >>> 8)
    (r2.toUInt8 :: out, rest)

/-- `r2 = (r2 << 8) | *--s`, `count` times; `s` is kept in the order of reading. -/
def absorb : (count : ℕ) → (r2 : UInt32) → (s : List UInt8) → UInt32 × List UInt8
  | 0, r2, s => (r2, s)
  | count + 1, r2, s =>
    let (r2, s) := absorb count r2 s
    ((r2 <<< 8) ||| (s.headD 0).toUInt32, s.tail)

/-- One level of the encoder: the bytes written and `R` after it. -/
def encodeLevel : List Pair → List UInt16 → List UInt8 × List UInt16
  | p :: ps, r0 :: r1 :: rs =>
    let r2 := r0.toUInt32 + r1.toUInt32 * UInt32.ofNat p.m
    let (out, r2) := emit p.bytes r2
    let (out', rs) := encodeLevel ps rs
    (out ++ out', r2.toUInt16 :: rs)
  | _, rs => ([], rs)

/-- The levels of the encoder and the two bytes of the last number. -/
def encodeLevels : List (List Pair) → List UInt16 → List UInt8
  | [], rs => (emit 2 (rs.headD 0).toUInt32).1
  | l :: ls, rs => (encodeLevel l rs).1 ++ encodeLevels ls (encodeLevel l rs).2

/-- One level of the decoder, from the last pair to the first. -/
def decodeLevel : List Pair → List UInt16 → List UInt8 → List UInt16 × List UInt8
  | p :: ps, r :: rs, s =>
    let (out, s) := decodeLevel ps rs s
    let (r2, s) := absorb p.bytes r.toUInt32 s
    let (r1, r0) := uint32DivmodUint14 r2 (UInt16.ofNat p.m)
    (r0 :: uint32ModUint14 r1 (UInt16.ofNat p.top) :: out, s)
  | _, rs, s => (rs, s)

/-- The levels of the decoder; the last number is below `final`. -/
def decodeLevels (final : ℕ) : List (List Pair) → List UInt8 → List UInt16 × List UInt8
  | [], s =>
    let (r1, s) := absorb 2 0 s
    ([uint32ModUint14 r1 (UInt16.ofNat final)], s)
  | l :: ls, s =>
    let (rs, s) := decodeLevels final ls s
    decodeLevel l rs s

/-- The numbers of a list are below bounds. -/
def Bounded (bs : List ℕ) (rs : List UInt16) : Prop := List.Forall₂ (fun b r => r.toNat < b) bs rs

/-- The bounds after a level. -/
def nextBounds : List Pair → List ℕ → List ℕ
  | p :: ps, _ :: _ :: bs => ((p.m * p.top - 1) / 256 ^ p.bytes + 1) :: nextBounds ps bs
  | _, bs => bs

/-- A pair that the division can take apart, whose carry fits `uint16`. -/
def Pair.Valid (p : Pair) : Prop :=
  0 < p.m ∧ p.m < 16384 ∧ 0 < p.top ∧ p.top < 16384 ∧ p.m * p.top ≤ 2 ^ 16 * 256 ^ p.bytes ∧
    p.m * p.top ≤ 2 ^ 32

instance (p : Pair) : Decidable p.Valid := inferInstanceAs (Decidable (_ ∧ _))

/-- The pairs of a level are valid and take numbers below the bounds. -/
def LevelFits : List Pair → List ℕ → Prop
  | p :: ps, b0 :: b1 :: bs => p.Valid ∧ b0 ≤ p.m ∧ b1 ≤ p.top ∧ LevelFits ps bs
  | [], _ => True
  | _ :: _, _ => False

instance : (ps : List Pair) → (bs : List ℕ) → Decidable (LevelFits ps bs)
  | p :: ps, _ :: _ :: bs =>
    have := instDecidableLevelFits ps bs
    inferInstanceAs (Decidable (p.Valid ∧ _ ∧ _ ∧ LevelFits ps bs))
  | [], _ => inferInstanceAs (Decidable True)
  | _ :: _, [] => inferInstanceAs (Decidable False)
  | _ :: _, [_] => inferInstanceAs (Decidable False)

/-- The levels of a table fit one after the other. -/
def LevelsFit (final : ℕ) : List (List Pair) → List ℕ → Prop
  | [], bs => bs.length = 1 ∧ bs.headD 0 ≤ final ∧ 0 < final ∧ final < 16384
  | l :: ls, bs => LevelFits l bs ∧ LevelsFit final ls (nextBounds l bs)

instance (final : ℕ) : (ls : List (List Pair)) → (bs : List ℕ) → Decidable (LevelsFit final ls bs)
  | [], _ => inferInstanceAs (Decidable (_ ∧ _))
  | l :: ls, bs =>
    have := instDecidableLevelsFit final ls (nextBounds l bs)
    inferInstanceAs (Decidable (LevelFits l bs ∧ LevelsFit final ls (nextBounds l bs)))

/-! ### The round trip -/

/-- Each byte that goes out divides the rest by 256. -/
theorem emit_toNat (count : ℕ) (r2 : UInt32) :
    (emit count r2).2.toNat = r2.toNat / 256 ^ count := by
  induction count generalizing r2 with
  | zero => simp [emit]
  | succ count ih =>
    rw [emit]
    simp only [ih, UInt32.toNat_shiftRight, UInt32.reduceToNat, Nat.reduceMod,
      Nat.shiftRight_eq_div_pow]
    rw [Nat.div_div_eq_div_mul, pow_succ' 256 count]

/-- A word is its low byte and the rest. -/
theorem bytes_or (r2 : UInt32) : ((r2 >>> 8) <<< 8) ||| r2.toUInt8.toUInt32 = r2 := by
  have hlt := r2.toNat_lt
  have hlow : r2.toNat % 256 < 2 ^ 8 := by omega
  apply UInt32.toNat_inj.mp
  simp only [UInt32.toNat_or, UInt32.toNat_shiftLeft, UInt32.toNat_shiftRight,
    UInt8.toNat_toUInt32, UInt32.toNat_toUInt8, UInt32.reduceToNat, Nat.reduceMod]
  rw [Nat.shiftRight_eq_div_pow, Nat.mod_eq_of_lt (a := _ <<< 8),
    ← Nat.shiftLeft_add_eq_or_of_lt hlow, Nat.shiftLeft_eq]
  · omega
  · rw [Nat.shiftLeft_eq]
    omega

/-- What is written is read back. -/
theorem absorb_emit (count : ℕ) (r2 : UInt32) (s : List UInt8) :
    absorb count (emit count r2).2 ((emit count r2).1.reverse ++ s) = (r2, s) := by
  induction count generalizing r2 s with
  | zero => rfl
  | succ count ih =>
    simp only [emit, absorb, List.reverse_cons, List.append_assoc, List.singleton_append, ih,
      List.headD_cons, List.tail_cons]
    rw [bytes_or]

/-- A divisor of the tables is a 16-bit word. -/
theorem toNat_ofNat_word {n : ℕ} (h : n < 16384) : (UInt16.ofNat n).toNat = n := by
  rw [UInt16.toNat_ofNat', Nat.mod_eq_of_lt (by omega)]

/-- The joint number of a pair. -/
theorem toNat_joint {p : Pair} (hp : p.Valid) {r0 r1 : UInt16} (h0 : r0.toNat < p.m)
    (h1 : r1.toNat < p.top) :
    (r0.toUInt32 + r1.toUInt32 * UInt32.ofNat p.m).toNat = r0.toNat + r1.toNat * p.m ∧
      r0.toNat + r1.toNat * p.m ≤ p.m * p.top - 1 := by
  obtain ⟨-, hm, -, -, -, hword⟩ := hp
  have hle : r1.toNat * p.m ≤ (p.top - 1) * p.m := Nat.mul_le_mul_right _ (by omega)
  have htop : (p.top - 1) * p.m = p.m * p.top - p.m := by
    rw [Nat.sub_mul, Nat.one_mul, Nat.mul_comm]
  have hpos : p.m ≤ p.m * p.top := Nat.le_mul_of_pos_right _ (by omega)
  have hmNat : (UInt32.ofNat p.m).toNat = p.m := by
    rw [UInt32.toNat_ofNat', Nat.mod_eq_of_lt (by omega)]
  have hprod : (r1.toUInt32 * UInt32.ofNat p.m).toNat = r1.toNat * p.m := by
    rw [UInt32.toNat_mul, hmNat, UInt16.toNat_toUInt32, Nat.mod_eq_of_lt (by omega)]
  refine ⟨?_, by omega⟩
  rw [UInt32.toNat_add, hprod, UInt16.toNat_toUInt32, Nat.mod_eq_of_lt (by omega)]

/-- A joint number is taken apart. -/
theorem divmod_joint {p : Pair} (hp : p.Valid) {r0 r1 : UInt16} (h0 : r0.toNat < p.m)
    (h1 : r1.toNat < p.top) {r2 : UInt32} (hr2 : r2.toNat = r0.toNat + r1.toNat * p.m) :
    (uint32DivmodUint14 r2 (UInt16.ofNat p.m)).2 = r0 ∧
      uint32ModUint14 (uint32DivmodUint14 r2 (UInt16.ofNat p.m)).1 (UInt16.ofNat p.top) = r1 := by
  obtain ⟨hm, hm', htop, htop', -, -⟩ := hp
  have hmNat := toNat_ofNat_word hm'
  have htopNat := toNat_ofNat_word htop'
  obtain ⟨hquot, hrem⟩ := uint32DivmodUint14_spec r2 (m := UInt16.ofNat p.m) (by omega) (by omega)
  rw [hmNat, hr2, Nat.add_mul_div_right _ _ hm, Nat.div_eq_of_lt h0, Nat.zero_add] at hquot
  rw [hmNat, hr2, Nat.add_mul_mod_self_right, Nat.mod_eq_of_lt h0] at hrem
  refine ⟨UInt16.toNat_inj.mp hrem, UInt16.toNat_inj.mp ?_⟩
  rw [uint32ModUint14, (uint32DivmodUint14_spec _ (by omega) (by omega)).2, hquot, htopNat,
    Nat.mod_eq_of_lt h1]

/-- A level reads back what it wrote. -/
theorem decodeLevel_encodeLevel {ps : List Pair} {bs : List ℕ} {rs : List UInt16}
    (hfit : LevelFits ps bs) (hrs : Bounded bs rs) (s : List UInt8) :
    decodeLevel ps (encodeLevel ps rs).2 ((encodeLevel ps rs).1.reverse ++ s) = (rs, s) ∧
      Bounded (nextBounds ps bs) (encodeLevel ps rs).2 := by
  induction ps generalizing bs rs s with
  | nil => exact ⟨by simp [encodeLevel, decodeLevel], by simpa [encodeLevel, nextBounds] using hrs⟩
  | cons p ps ih =>
    cases hrs with
    | nil => exact absurd hfit id
    | cons h0 hrs =>
      cases hrs with
      | nil => exact absurd hfit id
      | @cons b1 r1 bs rs h1 hrs =>
        rename_i b0 r0
        obtain ⟨hp, hb0, hb1, hfit⟩ := hfit
        have h0 : r0.toNat < p.m := lt_of_lt_of_le h0 hb0
        have h1 : r1.toNat < p.top := lt_of_lt_of_le h1 hb1
        obtain ⟨hjoint, hle⟩ := toNat_joint hp h0 h1
        simp only [encodeLevel, decodeLevel, nextBounds]
        set r2 := r0.toUInt32 + r1.toUInt32 * UInt32.ofNat p.m
        have hpow : 0 < 256 ^ p.bytes := by positivity
        have hcarry : (emit p.bytes r2).2.toNat ≤ (p.m * p.top - 1) / 256 ^ p.bytes := by
          rw [emit_toNat, hjoint]
          exact Nat.div_le_div_right hle
        have hcarryWord : (p.m * p.top - 1) / 256 ^ p.bytes < 2 ^ 16 := by
          apply Nat.div_lt_of_lt_mul
          have := hp.2.2.2.2.1
          rw [Nat.mul_comm (256 ^ p.bytes)]
          omega
        have hcast : (emit p.bytes r2).2.toUInt16.toUInt32 = (emit p.bytes r2).2 := by
          apply UInt32.toNat_inj.mp
          rw [UInt16.toNat_toUInt32, UInt32.toNat_toUInt16, Nat.mod_eq_of_lt (by omega)]
        obtain ⟨hdecode, hnext⟩ := ih hfit hrs ((emit p.bytes r2).1.reverse ++ s)
        obtain ⟨hrem, hquot⟩ := divmod_joint hp h0 h1 hjoint
        constructor
        · rw [List.reverse_append, List.append_assoc, hdecode]
          simp only [hcast, absorb_emit, hrem, hquot]
        · refine List.Forall₂.cons ?_ hnext
          rw [UInt32.toNat_toUInt16, Nat.mod_eq_of_lt (by omega)]
          omega

/-- The levels read back what they wrote. -/
theorem decodeLevels_encodeLevels {final : ℕ} {ls : List (List Pair)} {bs : List ℕ}
    {rs : List UInt16} (hfit : LevelsFit final ls bs) (hrs : Bounded bs rs) (s : List UInt8) :
    decodeLevels final ls ((encodeLevels ls rs).reverse ++ s) = (rs, s) := by
  induction ls generalizing bs rs s with
  | nil =>
    obtain ⟨hlen, hfinal, hpos, hword⟩ := hfit
    obtain ⟨b, rfl⟩ := List.length_eq_one_iff.mp hlen
    cases hrs with
    | cons hr hrs =>
      cases hrs with
      | nil =>
        rename_i r
        have hzero : (emit 2 r.toUInt32).2 = 0 := by
          apply UInt32.toNat_inj.mp
          have := r.toNat_lt
          rw [emit_toNat, UInt16.toNat_toUInt32, Nat.div_eq_of_lt (by omega)]
          rfl
        have hback := absorb_emit 2 r.toUInt32 s
        rw [hzero] at hback
        have hr : r.toNat < final := lt_of_lt_of_le hr hfinal
        have hmod : uint32ModUint14 r.toUInt32 (UInt16.ofNat final) = r := by
          apply UInt16.toNat_inj.mp
          have hfinalNat := toNat_ofNat_word hword
          rw [uint32ModUint14, (uint32DivmodUint14_spec _ (by omega) (by omega)).2, hfinalNat,
            UInt16.toNat_toUInt32, Nat.mod_eq_of_lt hr]
        simp only [encodeLevels, decodeLevels, List.headD_cons, hback, hmod]
  | cons l ls ih =>
    obtain ⟨hlevel, hrest⟩ := hfit
    obtain ⟨hdecode, hnext⟩ := decodeLevel_encodeLevel hlevel hrs s
    have hinner := ih hrest hnext ((encodeLevel l rs).1.reverse ++ s)
    simp only [encodeLevels, decodeLevels, List.reverse_append, List.append_assoc]
    rw [hinner]
    exact hdecode

/-! ### Arbitrary input -/

/-- The bounds of what a level decodes, from the bounds of what it is given. -/
def levelBounds : List Pair → List ℕ → List ℕ
  | p :: ps, _ :: bs => p.m :: p.top :: levelBounds ps bs
  | _, bs => bs

/-- The bounds of what the levels decode. -/
def decodedBounds (final : ℕ) : List (List Pair) → List ℕ
  | [] => [final]
  | l :: ls => levelBounds l (decodedBounds final ls)

/-- The moduli of a table can be divided by. -/
def Divisors (final : ℕ) (ls : List (List Pair)) : Prop :=
  (0 < final ∧ final < 16384) ∧
    ∀ l ∈ ls, ∀ p ∈ l, (0 < p.m ∧ p.m < 16384) ∧ 0 < p.top ∧ p.top < 16384

instance (final : ℕ) (ls : List (List Pair)) : Decidable (Divisors final ls) :=
  inferInstanceAs (Decidable (_ ∧ _))

/-- A remainder lies below its divisor. -/
theorem uint32ModUint14_lt (x : UInt32) {m : ℕ} (hm : 0 < m) (hm' : m < 16384) :
    (uint32ModUint14 x (UInt16.ofNat m)).toNat < m := by
  have hmNat := toNat_ofNat_word hm'
  rw [uint32ModUint14, (uint32DivmodUint14_spec _ (by omega) (by omega)).2, hmNat]
  exact Nat.mod_lt _ hm

/-- Whatever the bytes are, one level of the decoder gives digits within the bounds of the level. -/
theorem bounded_decodeLevel {ps : List Pair} {bs : List ℕ} {rs : List UInt16}
    (hps : ∀ p ∈ ps, (0 < p.m ∧ p.m < 16384) ∧ 0 < p.top ∧ p.top < 16384) (hrs : Bounded bs rs)
    (s : List UInt8) : Bounded (levelBounds ps bs) (decodeLevel ps rs s).1 := by
  induction ps generalizing bs rs s with
  | nil => simpa [levelBounds, decodeLevel] using hrs
  | cons p ps ih =>
    cases hrs with
    | nil => exact List.Forall₂.nil
    | cons _ hrs =>
      obtain ⟨⟨hm, hm'⟩, htop, htop'⟩ := hps p List.mem_cons_self
      have hrest := ih (fun p hp => hps p (List.mem_cons_of_mem _ hp)) hrs s
      exact List.Forall₂.cons (uint32ModUint14_lt _ hm hm')
        (List.Forall₂.cons (uint32ModUint14_lt _ htop htop') hrest)

/-- No input makes the decoder leave the range. -/
theorem bounded_decodeLevels (final : ℕ) (ls : List (List Pair)) (hls : Divisors final ls)
    (s : List UInt8) : Bounded (decodedBounds final ls) (decodeLevels final ls s).1 := by
  induction ls generalizing s with
  | nil => exact List.Forall₂.cons (uint32ModUint14_lt _ hls.1.1 hls.1.2) List.Forall₂.nil
  | cons l ls ih =>
    apply bounded_decodeLevel (hls.2 l List.mem_cons_self)
    exact ih ⟨hls.1, fun l hl => hls.2 l (List.mem_cons_of_mem _ hl)⟩ s

/-! ### The length -/

/-- The bytes that a table writes, with the two of the last number. -/
def tableBytes : List (List Pair) → ℕ
  | [] => 2
  | l :: ls => (l.map Pair.bytes).sum + tableBytes ls

/-- As many bytes go out as are asked for. -/
theorem length_emit (count : ℕ) (r2 : UInt32) : (emit count r2).1.length = count := by
  induction count generalizing r2 with
  | zero => rfl
  | succ count ih => simp only [emit, List.length_cons, ih]

/-- One level of the encoder writes the bytes of its pairs. -/
theorem length_encodeLevel {ps : List Pair} {bs : List ℕ} {rs : List UInt16}
    (hfit : LevelFits ps bs) (hrs : Bounded bs rs) :
    (encodeLevel ps rs).1.length = (ps.map Pair.bytes).sum := by
  induction ps generalizing bs rs with
  | nil => simp [encodeLevel]
  | cons p ps ih =>
    cases hrs with
    | nil => exact absurd hfit id
    | cons h0 hrs =>
      cases hrs with
      | nil => exact absurd hfit id
      | cons h1 hrs =>
        obtain ⟨-, -, -, hfit⟩ := hfit
        simp only [encodeLevel, List.length_append, length_emit, ih hfit hrs, List.map_cons,
          List.sum_cons]

/-- The encoder writes the bytes of its table. -/
theorem length_encodeLevels {final : ℕ} {ls : List (List Pair)} {bs : List ℕ} {rs : List UInt16}
    (hfit : LevelsFit final ls bs) (hrs : Bounded bs rs) :
    (encodeLevels ls rs).length = tableBytes ls := by
  induction ls generalizing bs rs with
  | nil => exact length_emit 2 _
  | cons l ls ih =>
    obtain ⟨hlevel, hrest⟩ := hfit
    have hnext := (decodeLevel_encodeLevel hlevel hrs []).2
    rw [encodeLevels, List.length_append, length_encodeLevel hlevel hrs, ih hrest hnext, tableBytes]

/-! ### The two tables -/

/-- A level of equal pairs. -/
def level (count m bytes : ℕ) : List Pair := List.replicate count ⟨m, bytes, m⟩

/-- The levels of `crypto_encode_761x4591`. -/
def levels4591 : List (List Pair) :=
  [level 380 4591 2, level 190 322 1, level 95 406 1, level 47 644 1 ++ [⟨644, 1, 4591⟩],
    level 23 1621 1 ++ [⟨1621, 2, 11550⟩], level 11 10265 2 ++ [⟨10265, 1, 286⟩],
    level 5 1608 1 ++ [⟨1608, 2, 11468⟩], level 2 10101 2 ++ [⟨10101, 1, 282⟩], level 1 1557 1,
    [⟨9470, 2, 11127⟩]]

/-- The levels of `crypto_encode_761x1531`. -/
def levels1531 : List (List Pair) :=
  [level 380 1531 1, level 190 9157 2, level 95 1280 1, level 47 6400 2 ++ [⟨6400, 2, 1531⟩],
    level 23 625 1 ++ [⟨625, 1, 150⟩], level 11 1526 1 ++ [⟨1526, 1, 367⟩],
    level 5 9097 2 ++ [⟨9097, 2, 2188⟩], level 2 1263 1 ++ [⟨1263, 1, 304⟩], level 1 6232 2,
    [⟨593, 1, 1500⟩]]

/-- The tables fit their bounds and their divisors. -/
theorem tables_check :
    (LevelsFit 1608 levels4591 (List.replicate 761 4591) ∧ Divisors 1608 levels4591 ∧
      decodedBounds 1608 levels4591 = List.replicate 761 4591 ∧ tableBytes levels4591 = 1158) ∧
    LevelsFit 3475 levels1531 (List.replicate 761 1531) ∧ Divisors 3475 levels1531 ∧
      decodedBounds 3475 levels1531 = List.replicate 761 1531 ∧ tableBytes levels1531 = 1007 := by
  decide +kernel

/-- The table for 4591 fits its digits. -/
theorem levels4591_fit : LevelsFit 1608 levels4591 (List.replicate 761 4591) := tables_check.1.1

/-- The table for 1531 fits its digits. -/
theorem levels1531_fit : LevelsFit 3475 levels1531 (List.replicate 761 1531) := tables_check.2.1

/-- The decoder for 4591 gives 761 digits below 4591. -/
theorem decodedBounds_levels4591 : decodedBounds 1608 levels4591 = List.replicate 761 4591 :=
  tables_check.1.2.2.1

/-- The decoder for 1531 gives 761 digits below 1531. -/
theorem decodedBounds_levels1531 : decodedBounds 3475 levels1531 = List.replicate 761 1531 :=
  tables_check.2.2.2.1

/-- The table for 4591 has 1158 bytes. -/
theorem tableBytes_levels4591 : tableBytes levels4591 = 1158 := tables_check.1.2.2.2

/-- The table for 1531 has 1007 bytes. -/
theorem tableBytes_levels1531 : tableBytes levels1531 = 1007 := tables_check.2.2.2.2

/-! ### Residues modulo `q` -/

/-- `Rq_encode`, which is `crypto_encode_761x4591`. -/
def rqEncode (v : Vector Int16 p) : List UInt8 :=
  encodeLevels levels4591 ((List.range p).map fun i => ((entry v i + 2295) &&& 16383).toUInt16)

/-- `Rq_decode`, which is `crypto_decode_761x4591`. -/
def rqDecode (s : List UInt8) : Vector Int16 p :=
  let r := (decodeLevels 1608 levels4591 s.reverse).1
  tabulate p fun i => (r.getD i 0).toInt16 - 2295

/-- `crypto_encode_761x1531`. -/
def encode761x1531 (v : Vector Int16 p) : List UInt8 :=
  encodeLevels levels1531 ((List.range p).map fun i =>
    ((((entry v i + 2295) &&& 16383).toUInt16.toUInt32 * 10923) >>> 15).toUInt16)

/-- `Rounded_decode`, which is `crypto_decode_761x1531`. -/
def roundedDecode (s : List UInt8) : Vector Int16 p :=
  let r := (decodeLevels 3475 levels1531 s.reverse).1
  tabulate p fun i => 3 * (r.getD i 0).toInt16 - 2295

/-- The rounding of `Round_and_encode`: the nearest multiple of 3. -/
def roundFq (a : Int16) : Int16 := ((3 : Int32) * ((10923 * a.toInt32 + 16384) >>> 15)).toInt16

/-- `Round_and_encode`, which is `crypto_encode_761x1531round`. -/
def roundAndEncode (a : Vector Int16 p) : List UInt8 :=
  encode761x1531 (tabulate p fun i => roundFq (entry a i))

/-- The low fourteen bits. -/
theorem toNat_and_16383 {x : Int16} (h : 0 ≤ x.toInt) (h' : x.toInt < 16384) :
    ((x &&& 16383).toUInt16.toNat : ℤ) = x.toInt := by
  have hlt := x.toUInt16.toNat_lt
  have hint : x.toInt = (x.toUInt16.toNat : ℤ).bmod (2 ^ 16) := BitVec.toInt_eq_toNat_bmod _
  rw [Int.bmod_def] at hint
  have hand : (x &&& 16383).toUInt16.toNat = x.toUInt16.toNat % 2 ^ 14 := by
    rw [Int16.toUInt16_and, UInt16.toNat_and]
    exact Nat.and_two_pow_sub_one_eq_mod _ 14
  rw [hand]
  split_ifs at hint <;> omega

/-- A residue as a digit. -/
theorem digit_toNat {x : Int16} (h : Residue x.toInt) :
    (((x + 2295) &&& 16383).toUInt16.toNat : ℤ) = x.toInt + 2295 := by
  have h := abs_le.mp h
  have hadd : (x + 2295).toInt = x.toInt + 2295 := by
    rw [Int16.toInt_add, show (2295 : Int16).toInt = 2295 from rfl,
      bmod_halfword (by omega) (by omega)]
  rw [toNat_and_16383 (by omega) (by omega), hadd]

/-- Digits of one bound. -/
theorem bounded_map {b : ℕ} {f : ℕ → UInt16} (n : ℕ) (h : ∀ i < n, (f i).toNat < b) :
    Bounded (List.replicate n b) ((List.range n).map f) := by
  rw [Bounded, List.forall₂_iff_get]
  refine ⟨by simp, fun i h1 h2 => ?_⟩
  simp only [List.get_eq_getElem, List.getElem_replicate, List.getElem_map, List.getElem_range]
  exact h i (by simpa using h2)

/-- A digit of a bounded list. -/
theorem getD_of_bounded {n b : ℕ} {rs : List UInt16} (h : Bounded (List.replicate n b) rs) {i : ℕ}
    (hi : i < n) : (rs.getD i 0).toNat < b := by
  rw [Bounded, List.forall₂_iff_get] at h
  have hlen : i < rs.length := by rw [← h.1, List.length_replicate]; exact hi
  have hget := h.2 i (by rw [List.length_replicate]; exact hi) hlen
  rw [List.getD_eq_getElem _ _ hlen]
  simpa using hget

/-- A small word is the same number when it is read as a signed one. -/
theorem toInt_toInt16 {u : UInt16} (h : u.toNat < 32768) : u.toInt16.toInt = u.toNat := by
  rw [← Int16.toInt_toBitVec, UInt16.toBitVec_toInt16, BitVec.toInt_eq_toNat_cond,
    UInt16.toNat_toBitVec]
  split_ifs <;> omega

/-- Residues moved up by 2295 are digits below 4591. -/
theorem bounded_rqDigits {v : Vector Int16 p} (hv : ∀ i, Residue (fqInts v i)) :
    Bounded (List.replicate 761 4591)
      ((List.range p).map fun i => ((entry v i + 2295) &&& 16383).toUInt16) := by
  apply bounded_map p
  intro i _
  have hdigit := digit_toNat (hv i)
  have hres := abs_le.mp (hv i)
  rw [fqInts] at hres
  omega

/-- `Rq_decode` reads what `Rq_encode` writes. -/
theorem rqDecode_rqEncode {v : Vector Int16 p} (hv : ∀ i, Residue (fqInts v i)) :
    rqDecode (rqEncode v) = v := by
  have hback := decodeLevels_encodeLevels levels4591_fit (bounded_rqDigits hv) []
  rw [List.append_nil] at hback
  apply ext_entry
  intro i hi
  rw [rqDecode, rqEncode, hback, entry_tabulate, if_pos hi]
  have hdigit := digit_toNat (hv i)
  have hres := abs_le.mp (hv i)
  rw [fqInts] at hres
  rw [List.getD_eq_getElem _ _ (by simpa using hi), List.getElem_map, List.getElem_range]
  apply Int16.toInt_inj.mp
  rw [Int16.toInt_sub, toInt_toInt16 (by omega), hdigit, show (2295 : Int16).toInt = 2295 from rfl,
    bmod_halfword (by omega) (by omega)]
  omega

/-- Residues are encoded in 1158 bytes. -/
theorem length_rqEncode {v : Vector Int16 p} (hv : ∀ i, Residue (fqInts v i)) :
    (rqEncode v).length = 1158 := by
  rw [rqEncode, length_encodeLevels levels4591_fit (bounded_rqDigits hv), tableBytes_levels4591]

/-- Every string decodes to residues. -/
theorem residue_rqDecode (s : List UInt8) (i : ℕ) : Residue (fqInts (rqDecode s) i) := by
  rw [fqInts]
  by_cases hi : i < p
  · have hbound := bounded_decodeLevels 1608 levels4591 tables_check.1.2.1 s.reverse
    rw [decodedBounds_levels4591] at hbound
    have hlt := getD_of_bounded hbound hi
    rw [rqDecode, entry_tabulate, if_pos hi, Int16.toInt_sub, toInt_toInt16 (by omega),
      show (2295 : Int16).toInt = 2295 from rfl, bmod_halfword (by omega) (by omega)]
    exact abs_le.mpr ⟨by omega, by omega⟩
  · rw [entry_of_le _ (not_lt.mp hi)]
    exact residue_zero

/-! ### Rounding -/

/-- The nearest multiple of 3. -/
theorem roundFq_toInt {a : Int16} (h : Residue a.toInt) :
    ∃ c : ℤ, (roundFq a).toInt = 3 * c ∧ |3 * c - a.toInt| ≤ 1 ∧ |c| ≤ 765 := by
  have h := abs_le.mp h
  refine ⟨(10923 * a.toInt + 16384) / 2 ^ 15, ?_, abs_le.mpr ⟨by omega, by omega⟩,
    abs_le.mpr ⟨by omega, by omega⟩⟩
  rw [roundFq, Int32.toInt_toInt16]
  simp (disch := omega) only [Int32.toInt_mul, Int32.toInt_add, toInt_shiftRight_15,
    Int16.toInt_toInt32, show (3 : Int32).toInt = 3 from rfl,
    show (10923 : Int32).toInt = 10923 from rfl, show (16384 : Int32).toInt = 16384 from rfl,
    bmod_word, bmod_halfword]

/-- The digit of a rounded residue. -/
theorem roundedDigit_toNat {x : Int16} {c : ℤ} (hx : x.toInt = 3 * c) (hc : |c| ≤ 765) :
    ((((((x + 2295) &&& 16383).toUInt16.toUInt32 * 10923) >>> 15).toUInt16.toNat : ℕ) : ℤ) =
      c + 765 := by
  have hc := abs_le.mp hc
  have hdigit := digit_toNat (x := x) (abs_le.mpr ⟨by omega, by omega⟩)
  generalize ((x + 2295) &&& 16383).toUInt16 = d at hdigit ⊢
  rw [UInt32.toNat_toUInt16, UInt32.toNat_shiftRight, UInt32.toNat_mul, UInt16.toNat_toUInt32]
  simp only [UInt32.reduceToNat, Nat.reduceMod, Nat.shiftRight_eq_div_pow]
  obtain ⟨k, hk⟩ : ∃ k : ℕ, (k : ℤ) = c + 765 := ⟨(c + 765).toNat, by omega⟩
  have hquot : d.toNat * 10923 / 2 ^ 15 = k := by omega
  rw [Nat.mod_eq_of_lt (a := d.toNat * 10923) (by omega), hquot, Nat.mod_eq_of_lt (by omega), hk]

/-- A rounded residue is three times a number of at most 765. -/
theorem roundFq_entry {a : Vector Int16 p} (ha : ∀ i, Residue (fqInts a i)) {i : ℕ} (hi : i < p) :
    ∃ c : ℤ, (entry (tabulate p fun i => roundFq (entry a i)) i).toInt = 3 * c ∧ |c| ≤ 765 := by
  obtain ⟨c, hc, -, hle⟩ := roundFq_toInt (ha i)
  exact ⟨c, by rw [entry_tabulate, if_pos hi, hc], hle⟩

/-- Rounded residues divided by three are digits below 1531. -/
theorem bounded_roundedDigits {a : Vector Int16 p} (ha : ∀ i, Residue (fqInts a i)) :
    let x := tabulate p fun i => roundFq (entry a i)
    Bounded (List.replicate 761 1531) ((List.range p).map fun i =>
      ((((entry x i + 2295) &&& 16383).toUInt16.toUInt32 * 10923) >>> 15).toUInt16) := by
  apply bounded_map p
  intro i hi
  obtain ⟨c, hc, hle⟩ := roundFq_entry ha hi
  have hdigit := roundedDigit_toNat hc hle
  have hle := abs_le.mp hle
  omega

/-- `Rounded_decode` reads the rounded residues that `Round_and_encode` writes. -/
theorem roundedDecode_roundAndEncode {a : Vector Int16 p} (ha : ∀ i, Residue (fqInts a i)) :
    roundedDecode (roundAndEncode a) = tabulate p fun i => roundFq (entry a i) := by
  have hback := decodeLevels_encodeLevels levels1531_fit (bounded_roundedDigits ha) []
  rw [List.append_nil] at hback
  apply ext_entry
  intro i hi
  obtain ⟨c, hc, hle⟩ := roundFq_entry ha hi
  have hdigit := roundedDigit_toNat hc hle
  have hle := abs_le.mp hle
  rw [roundedDecode, roundAndEncode, encode761x1531, hback, entry_tabulate, if_pos hi,
    List.getD_eq_getElem _ _ (by simpa using hi), List.getElem_map, List.getElem_range]
  apply Int16.toInt_inj.mp
  rw [Int16.toInt_sub, Int16.toInt_mul, toInt_toInt16 (by omega), hdigit,
    show (3 : Int16).toInt = 3 from rfl, show (2295 : Int16).toInt = 2295 from rfl,
    bmod_halfword (x := 3 * (c + 765)) (by omega) (by omega),
    bmod_halfword (by omega) (by omega), hc]
  ring

/-- Rounded residues are encoded in 1007 bytes. -/
theorem length_roundAndEncode {a : Vector Int16 p} (ha : ∀ i, Residue (fqInts a i)) :
    (roundAndEncode a).length = 1007 := by
  rw [roundAndEncode, encode761x1531, length_encodeLevels levels1531_fit (bounded_roundedDigits ha),
    tableBytes_levels1531]

/-- Every ciphertext decodes to residues. -/
theorem residue_roundedDecode (s : List UInt8) (i : ℕ) :
    Residue (fqInts (roundedDecode s) i) := by
  rw [fqInts]
  by_cases hi : i < p
  · have hbound := bounded_decodeLevels 3475 levels1531 tables_check.2.2.1 s.reverse
    rw [decodedBounds_levels1531] at hbound
    have hlt := getD_of_bounded hbound hi
    rw [roundedDecode, entry_tabulate, if_pos hi, Int16.toInt_sub, Int16.toInt_mul,
      toInt_toInt16 (by omega), show (3 : Int16).toInt = 3 from rfl,
      show (2295 : Int16).toInt = 2295 from rfl, bmod_halfword (x := 3 * _) (by omega) (by omega),
      bmod_halfword (by omega) (by omega)]
    exact abs_le.mpr ⟨by omega, by omega⟩
  · rw [entry_of_le _ (not_lt.mp hi)]
    exact residue_zero

/-! ### Small polynomials -/

/-- Four coefficients in a byte. -/
def packSmall (f0 f1 f2 f3 : Int8) : UInt8 :=
  let x := f0.toUInt8 + 1
  let x := x + ((f1.toUInt8 + 1) <<< 2)
  let x := x + ((f2.toUInt8 + 1) <<< 4)
  x + ((f3.toUInt8 + 1) <<< 6)

/-- `Small_encode`, which is `crypto_encode_761x3`: four coefficients a byte and the last alone. -/
def smallEncode (f : Vector Int8 p) : List UInt8 :=
  (List.range (p / 4)).map (fun i => packSmall (entry f (4 * i)) (entry f (4 * i + 1))
    (entry f (4 * i + 2)) (entry f (4 * i + 3))) ++ [(entry f (p - 1)).toUInt8 + 1]

/-- `Small_decode`, which is `crypto_decode_761x3`: the shifts by two add up. -/
def smallDecode (s : List UInt8) : Vector Int8 p :=
  tabulate p fun i =>
    ((((s.getD (i / 4) 0) >>> UInt8.ofNat (2 * (i % 4))) &&& 3) - 1).toInt8

/-- Small coefficients are encoded in 191 bytes. -/
@[simp] theorem length_smallEncode (f : Vector Int8 p) : (smallEncode f).length = 191 := by
  rw [smallEncode, List.length_append, List.length_map, List.length_range]
  rfl

/-- The digit of a coefficient. -/
theorem toNat_small {x : Int8} (h : |x.toInt| ≤ 1) :
    ((x.toUInt8 + 1).toNat : ℤ) = x.toInt + 1 := by
  rcases small_cases h with rfl | rfl | rfl <;> rfl

/-- A digit moved down by one is the coefficient. -/
theorem toInt_digit {u : UInt8} {x : Int8} (h : |x.toInt| ≤ 1) (hu : (u.toNat : ℤ) = x.toInt + 1) :
    (u - 1).toInt8 = x := by
  have hu' : u = x.toUInt8 + 1 := by
    apply UInt8.toNat_inj.mp
    have := toNat_small h
    omega
  rw [hu']
  rcases small_cases h with rfl | rfl | rfl <;> rfl

/-- The value of a packed byte is that of its four digits. -/
theorem toNat_packSmall {f0 f1 f2 f3 : Int8} (h0 : |f0.toInt| ≤ 1) (h1 : |f1.toInt| ≤ 1)
    (h2 : |f2.toInt| ≤ 1) (h3 : |f3.toInt| ≤ 1) :
    ((packSmall f0 f1 f2 f3).toNat : ℤ) = (f0.toInt + 1) + (f1.toInt + 1) * 4 +
      (f2.toInt + 1) * 16 + (f3.toInt + 1) * 64 := by
  have d0 := toNat_small h0
  have d1 := toNat_small h1
  have d2 := toNat_small h2
  have d3 := toNat_small h3
  have h0 := abs_le.mp h0
  have h1 := abs_le.mp h1
  have h2 := abs_le.mp h2
  have h3 := abs_le.mp h3
  simp only [packSmall]
  generalize f0.toUInt8 + 1 = u0 at *
  generalize f1.toUInt8 + 1 = u1 at *
  generalize f2.toUInt8 + 1 = u2 at *
  generalize f3.toUInt8 + 1 = u3 at *
  simp only [UInt8.toNat_add, UInt8.toNat_shiftLeft, UInt8.reduceToNat, Nat.reduceMod,
    Nat.shiftLeft_eq]
  omega

/-- `Small_decode` reads what `Small_encode` writes. -/
theorem smallDecode_smallEncode {f : Vector Int8 p} (hf : ∀ i, |smallInts f i| ≤ 1) :
    smallDecode (smallEncode f) = f := by
  apply ext_entry
  intro i hi
  have hi' : i < 761 := hi
  rw [smallDecode, entry_tabulate, if_pos hi]
  apply toInt_digit (hf i)
  have hshift : (UInt8.ofNat (2 * (i % 4))).toNat % 8 = 2 * (i % 4) := by
    rw [UInt8.toNat_ofNat']
    omega
  rw [UInt8.toNat_and, UInt8.toNat_shiftRight, hshift, show (3 : UInt8).toNat = 2 ^ 2 - 1 from rfl,
    Nat.and_two_pow_sub_one_eq_mod, Nat.shiftRight_eq_div_pow]
  by_cases hlast : i = 760
  · have hbyte : (smallEncode f).getD (i / 4) 0 = (entry f 760).toUInt8 + 1 := by
      rw [hlast, smallEncode, List.getD_append_right _ _ _ _ (by simp [p])]
      simp [p]
    have hdigit := toNat_small (hf 760)
    have hle := abs_le.mp (hf 760)
    rw [smallInts] at hle
    rw [hbyte, hlast]
    generalize (entry f 760).toUInt8 + 1 = u at hdigit ⊢
    norm_num
    omega
  · have hlt : i / 4 < p / 4 := by
      rw [show p / 4 = 190 from rfl]
      omega
    have hbyte : (smallEncode f).getD (i / 4) 0 = packSmall (entry f (4 * (i / 4)))
        (entry f (4 * (i / 4) + 1)) (entry f (4 * (i / 4) + 2)) (entry f (4 * (i / 4) + 3)) := by
      rw [smallEncode, List.getD_append _ _ _ _ (by simpa using hlt),
        List.getD_eq_getElem _ _ (by simpa using hlt), List.getElem_map, List.getElem_range]
    have hpack := toNat_packSmall (hf (4 * (i / 4))) (hf (4 * (i / 4) + 1))
      (hf (4 * (i / 4) + 2)) (hf (4 * (i / 4) + 3))
    have h0 := abs_le.mp (hf (4 * (i / 4)))
    have h1 := abs_le.mp (hf (4 * (i / 4) + 1))
    have h2 := abs_le.mp (hf (4 * (i / 4) + 2))
    have h3 := abs_le.mp (hf (4 * (i / 4) + 3))
    simp only [smallInts] at h0 h1 h2 h3
    rw [hbyte]
    generalize packSmall (entry f (4 * (i / 4))) (entry f (4 * (i / 4) + 1))
      (entry f (4 * (i / 4) + 2)) (entry f (4 * (i / 4) + 3)) = u at hpack
    rcases (show i % 4 = 0 ∨ i % 4 = 1 ∨ i % 4 = 2 ∨ i % 4 = 3 by omega) with hr | hr | hr | hr
    · rw [hr, show i = 4 * (i / 4) by omega]
      norm_num
      omega
    · rw [hr, show i = 4 * (i / 4) + 1 by omega]
      norm_num
      omega
    · rw [hr, show i = 4 * (i / 4) + 2 by omega]
      norm_num
      omega
    · rw [hr, show i = 4 * (i / 4) + 3 by omega]
      norm_num
      omega

/-! ### Random words -/

/-- `crypto_decode_pxint32`: four bytes a word, the low one first. -/
def decodePxint32 (s : List UInt8) (i : ℕ) : UInt32 :=
  let u0 := (s.getD (4 * i) 0).toUInt32
  let u1 := (s.getD (4 * i + 1) 0).toUInt32
  let u2 := (s.getD (4 * i + 2) 0).toUInt32
  let u3 := (s.getD (4 * i + 3) 0).toUInt32
  u0 ||| (u1 <<< 8) ||| (u2 <<< 16) ||| (u3 <<< 24)

/-! ### What is kept -/

/-- The codings of keys lose nothing, and no string decodes to anything but residues. -/
theorem keyCoding_lossless {h : Vector Int16 p} {f : Vector Int8 p}
    (hh : ∀ i, Residue (fqInts h i)) (hf : ∀ i, |smallInts f i| ≤ 1) :
    ((rqEncode h).length = 1158 ∧ rqDecode (rqEncode h) = h) ∧
      ((smallEncode f).length = 191 ∧ smallDecode (smallEncode f) = f) ∧
      ∀ s i, Residue (fqInts (rqDecode s) i) :=
  ⟨⟨length_rqEncode hh, rqDecode_rqEncode hh⟩,
    ⟨length_smallEncode f, smallDecode_smallEncode hf⟩, residue_rqDecode⟩

/-- A polynomial with the largest residue, a negative one and 7 in turn. -/
def sampleFq : Vector Int16 p :=
  tabulate p fun i => if i % 3 = 0 then 2295 else if i % 3 = 1 then -1147 else 7

/-- A polynomial with all three small coefficients. -/
def sampleSmall : Vector Int8 p :=
  tabulate p fun i => if i % 3 = 0 then -1 else if i % 3 = 1 then 1 else 0

/-- The sample has residues only. -/
theorem sampleFq_residue (i : ℕ) : Residue (fqInts sampleFq i) := by
  rw [Residue, fqInts, sampleFq, entry_tabulate]
  split_ifs <;> decide

/-- The sample has small coefficients only. -/
theorem sampleSmall_le (i : ℕ) : |smallInts sampleSmall i| ≤ 1 := by
  rw [smallInts, sampleSmall, entry_tabulate]
  split_ifs <;> decide

/-- Mixed coefficients as keys. -/
theorem keyCoding_mixed :
    rqDecode (rqEncode sampleFq) = sampleFq ∧ smallDecode (smallEncode sampleSmall) = sampleSmall :=
  have h := keyCoding_lossless sampleFq_residue sampleSmall_le
  ⟨h.1.2, h.2.1.2⟩

/-- The coding of a ciphertext keeps the nearest multiples of 3, which it encodes again to the
same bytes. -/
theorem ciphertextCoding_rounds {a : Vector Int16 p} (ha : ∀ i, Residue (fqInts a i)) :
    (roundAndEncode a).length = 1007 ∧
      (∀ i < p, ∃ c : ℤ, fqInts (roundedDecode (roundAndEncode a)) i = 3 * c ∧
        |3 * c - fqInts a i| ≤ 1) ∧
      roundAndEncode (roundedDecode (roundAndEncode a)) = roundAndEncode a ∧
      ∀ s i, Residue (fqInts (roundedDecode s) i) := by
  have hback := roundedDecode_roundAndEncode ha
  have hround : ∀ i < p, ∃ c : ℤ, fqInts (roundedDecode (roundAndEncode a)) i = 3 * c ∧
      |3 * c - fqInts a i| ≤ 1 := by
    intro i hi
    obtain ⟨c, hc, hle, -⟩ := roundFq_toInt (ha i)
    exact ⟨c, by rw [hback, fqInts, entry_tabulate, if_pos hi, hc], hle⟩
  have hagain : (tabulate p fun i => roundFq (entry (roundedDecode (roundAndEncode a)) i)) =
      tabulate p fun i => roundFq (entry a i) := by
    apply ext_entry
    intro i hi
    obtain ⟨c, hc, -⟩ := hround i hi
    obtain ⟨d, hd, hle, -⟩ := roundFq_toInt (residue_roundedDecode (roundAndEncode a) i)
    rw [fqInts] at hc
    rw [hc] at hle
    have hle := abs_le.mp hle
    have hcd : (roundFq (entry (roundedDecode (roundAndEncode a)) i)).toInt =
        (entry (roundedDecode (roundAndEncode a)) i).toInt := by rw [hd, hc]; omega
    rw [entry_tabulate, if_pos hi, entry_tabulate, if_pos hi, Int16.toInt_inj.mp hcd, hback,
      entry_tabulate, if_pos hi]
  refine ⟨length_roundAndEncode ha, hround, ?_, residue_roundedDecode⟩
  rw [roundAndEncode, hagain, ← roundAndEncode]

/-- Mixed coefficients as a ciphertext. -/
theorem ciphertextCoding_mixed :
    (roundAndEncode sampleFq).length = 1007 ∧
      roundAndEncode (roundedDecode (roundAndEncode sampleFq)) = roundAndEncode sampleFq :=
  have h := ciphertextCoding_rounds sampleFq_residue
  ⟨h.1, h.2.2.1⟩

end SimpleGo.Sntrup
