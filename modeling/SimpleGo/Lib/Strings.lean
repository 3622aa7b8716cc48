import Mathlib.Data.List.GetD
import Mathlib.Data.List.TakeWhile
import SimpleGo.Lib.Memory

/-!
# C strings and length-prefixed strings

A C string is the part of an array before its first zero byte. A short string is a byte of
length and that many bytes; reading one back gives the string and what follows it.
-/

namespace SimpleGo.Lib

/-- The characters of a C string. -/
def cString {n : ℕ} (a : Bytes n) : List UInt8 := a.toList.takeWhile (· ≠ 0)

/-- `strncpy(dst, src, n)` into an array of `n + 1` bytes whose last byte is zero. -/
def strncpy (n : ℕ) (src : List UInt8) : Bytes (n + 1) :=
  Vector.ofFn fun i => if i.val < n then src.getD i.val 0 else 0

/-- A string with its length in front, in one byte. -/
def shortString (s : List UInt8) : List UInt8 := UInt8.ofNat s.length :: s

/-- Read one short string. -/
def takeShort : List UInt8 → Option (List UInt8 × List UInt8)
  | [] => none
  | len :: rest =>
    if rest.length < len.toNat then none else some (rest.take len.toNat, rest.drop len.toNat)

/-- The front of an array overwritten with bytes, as far as it goes. -/
def overwrite {n : ℕ} (a : Bytes n) (l : List UInt8) : Bytes n :=
  Vector.ofFn fun i => l.getD i.val a[i]

/-- The part of a string behind the first occurrence of a character: `strchr`, stepped over. -/
def behindChar (c : UInt8) (s : List UInt8) : Option (List UInt8) :=
  if c ∈ s then some ((s.dropWhile (· ≠ c)).drop 1) else none

/-- The part of a string before the first of some characters. -/
def beforeChars (stops s : List UInt8) : List UInt8 := s.takeWhile (· ∉ stops)

/-- A C string is not longer than its array. -/
theorem cString_length_le {n : ℕ} (a : Bytes n) : (cString a).length ≤ n := by
  have h : (cString a).length ≤ a.toList.length := (List.takeWhile_sublist _).length_le
  rwa [Vector.length_toList] at h

/-- A C string has no zero byte. -/
theorem zero_notMem_cString {n : ℕ} (a : Bytes n) : 0 ∉ cString a := by
  intro h
  have hne := List.mem_takeWhile_imp h
  simp at hne

/-- The copied array is the string, cut to `n` bytes, and zeros after it. -/
theorem strncpy_toList (n : ℕ) (src : List UInt8) :
    (strncpy n src).toList = src.take n ++ List.replicate (n + 1 - (src.take n).length) 0 := by
  apply List.ext_getElem
  · simp only [Vector.length_toList, List.length_append, List.length_take, List.length_replicate]
    omega
  · intro i h₁ h₂
    rw [List.getElem_append]
    simp only [strncpy, Vector.getElem_toList, Vector.getElem_ofFn, List.length_take,
      List.getElem_take, List.getElem_replicate]
    by_cases hi : i < n
    · by_cases hs : i < src.length
      · rw [if_pos hi, dif_pos (by omega), List.getD_eq_getElem _ _ hs]
      · rw [if_pos hi, dif_neg (by omega), List.getD_eq_default _ _ (by omega)]
    · rw [if_neg hi, dif_neg (by omega)]

/-- The copy holds the string, cut to `n` bytes. -/
theorem cString_strncpy (n : ℕ) (src : List UInt8) (h : 0 ∉ src) :
    cString (strncpy n src) = src.take n := by
  have hlen : 0 < n + 1 - (src.take n).length := by
    have := List.length_take_le n src
    omega
  obtain ⟨k, hk⟩ := Nat.exists_eq_succ_of_ne_zero (Nat.pos_iff_ne_zero.1 hlen)
  have hmem : ∀ x ∈ src.take n, decide (x ≠ 0) = true := fun x hx =>
    decide_eq_true fun hx0 => h (hx0 ▸ List.mem_of_mem_take hx)
  rw [cString, strncpy_toList, List.takeWhile_append_of_pos hmem, hk, List.replicate_succ]
  simp

/-- An overwritten array is the bytes, and then what was there before. -/
theorem overwrite_toList {n : ℕ} (a : Bytes n) (l : List UInt8) :
    (overwrite a l).toList = l.take n ++ a.toList.drop l.length := by
  apply List.ext_getElem
  · simp only [Vector.length_toList, List.length_append, List.length_take, List.length_drop]
    omega
  · intro i h₁ h₂
    rw [Vector.length_toList] at h₁
    rw [List.getElem_append]
    simp only [overwrite, Vector.getElem_toList, Vector.getElem_ofFn, List.length_take,
      List.getElem_take, List.getElem_drop]
    by_cases hi : i < l.length
    · rw [dif_pos (by omega), List.getD_eq_getElem _ _ hi]
    · rw [dif_neg (by omega), List.getD_eq_default _ _ (by omega)]
      simp only [Fin.getElem_fin]
      congr 1
      omega

/-- Enough bytes leave nothing of the array. -/
theorem overwrite_of_le {n : ℕ} (a b : Bytes n) {l : List UInt8} (h : n ≤ l.length) :
    overwrite a l = overwrite b l := by
  apply Vector.toList_inj.1
  rw [overwrite_toList, overwrite_toList, List.drop_of_length_le (by simpa using h),
    List.drop_of_length_le (by simpa using h)]

/-- Too few bytes leave the end of the array. -/
theorem overwrite_getElem_of_le {n : ℕ} (a : Bytes n) {l : List UInt8} {i : ℕ} (hi : i < n)
    (h : l.length ≤ i) : (overwrite a l)[i] = a[i] := by
  simp only [overwrite, Vector.getElem_ofFn, List.getD_eq_default _ _ h, Fin.getElem_fin]

/-- A string that is copied with its zero byte is the C string, whatever was there before. -/
theorem cString_overwrite {n : ℕ} (a : Bytes n) {l : List UInt8} (hlen : l.length ≤ n)
    (hzero : 0 ∈ l) : cString (overwrite a l) = l.takeWhile (· ≠ 0) := by
  rw [cString, overwrite_toList, List.take_of_length_le hlen, List.takeWhile_append,
    if_neg fun hall => ?_]
  have hsame : l.takeWhile (· ≠ 0) = l :=
    (List.takeWhile_sublist _).eq_of_length hall
  rw [← hsame] at hzero
  exact absurd (List.mem_takeWhile_imp hzero) (by simp)

/-- The bytes that were written are at the front. -/
theorem overwrite_take {n : ℕ} (a : Bytes n) {l : List UInt8} (hlen : l.length ≤ n) :
    (overwrite a l).toList.take l.length = l := by
  rw [overwrite_toList, List.take_of_length_le hlen, List.take_left]

/-- A short string is read back, with what follows it. -/
theorem takeShort_shortString (s rest : List UInt8) (h : s.length < 256) :
    takeShort (shortString s ++ rest) = some (s, rest) := by
  have hlen : (UInt8.ofNat s.length).toNat = s.length := by
    rw [toNat_ofNat_mod]
    omega
  simp only [shortString, List.cons_append, takeShort, hlen]
  rw [if_neg (by simp), List.take_left, List.drop_left]

end SimpleGo.Lib
