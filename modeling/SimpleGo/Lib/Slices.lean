import Mathlib.Data.List.DropRight
import Mathlib.Data.Nat.Notation

/-!
# A window that slides over a list

The part of a list between two indices, and what becomes of it when either index moves by a
few. A second list, of which only the elements with a property count, follows the window when
those elements are removed at one end and added at the other.
-/

namespace SimpleGo.Lib

variable {α : Type*}

/-- The elements from index `i` on, before index `j`. -/
def slice (l : List α) (i j : ℕ) : List α := (l.take j).drop i

@[simp] theorem slice_nil (i j : ℕ) : slice ([] : List α) i j = [] := by
  rw [slice, List.take_nil, List.drop_nil]

@[simp] theorem slice_self (l : List α) (i : ℕ) : slice l i i = [] :=
  List.drop_eq_nil_of_le (List.length_take_le i l)

/-- A slice inside the list is as long as its indices say. -/
theorem slice_length {l : List α} {i j : ℕ} (hj : j ≤ l.length) : (slice l i j).length = j - i := by
  rw [slice, List.length_drop, List.length_take, Nat.min_eq_left hj]

/-- The start moves up. -/
theorem slice_drop (l : List α) (i j n : ℕ) : (slice l i j).drop n = slice l (i + n) j := by
  rw [slice, slice, List.drop_drop]

/-- The end moves down. -/
theorem slice_take (l : List α) {i j n : ℕ} (h : i + n ≤ j) :
    (slice l i j).take n = slice l i (i + n) := by
  rw [slice, slice, List.take_drop, List.take_take, Nat.min_eq_left (by omega)]

/-- Two slices meet. -/
theorem slice_append_slice (l : List α) {i j k : ℕ} (hij : i ≤ j) (hjk : j ≤ k) :
    slice l i j ++ slice l j k = slice l i k := by
  obtain ⟨n, rfl⟩ := Nat.exists_eq_add_of_le hij
  rw [← slice_take l (show i + n ≤ k by omega), ← slice_drop l i k n, List.take_append_drop]

/-- One element alone. -/
theorem slice_succ {l : List α} {i : ℕ} {a : α} (h : l[i]? = some a) :
    slice l i (i + 1) = [a] := by
  obtain ⟨hlen, rfl⟩ := List.getElem?_eq_some_iff.mp h
  rw [slice, List.drop_take, Nat.add_sub_cancel_left, List.drop_eq_getElem_cons hlen]
  rfl

/-- An entry of a slice. -/
theorem slice_getElem? (l : List α) (i j n : ℕ) :
    (slice l i j)[n]? = if i + n < j then l[i + n]? else none := by
  rw [slice, List.getElem?_drop, List.getElem?_take]

/-- Only the elements of the slice matter. -/
theorem slice_congr {l l' : List α} {i j : ℕ} (h : ∀ k, i ≤ k → k < j → l[k]? = l'[k]?) :
    slice l i j = slice l' i j := by
  apply List.ext_getElem?
  intro n
  rw [slice_getElem?, slice_getElem?]
  split
  · rename_i hlt
    exact h (i + n) (Nat.le_add_right i n) hlt
  · rfl

/-- The end moves down by a few. -/
theorem slice_rdrop {l : List α} {i j n : ℕ} (hj : j ≤ l.length) (h : i + n ≤ j) :
    (slice l i j).rdrop n = slice l i (j - n) := by
  rw [List.rdrop, slice_length hj, slice_take l (show i + (j - i - n) ≤ j by omega)]
  congr 1
  omega

/-- The list grows behind the slice. -/
theorem slice_of_append {l : List α} (r : List α) {i j : ℕ} (hj : j ≤ l.length) :
    slice (l ++ r) i j = slice l i j := by
  rw [slice, slice, List.take_append_of_le_length hj]

/-! ### Removing the first elements with a property -/

/-- The list without its first `n` elements that have a property. -/
def removeFirst (p : α → Bool) : ℕ → List α → List α
  | 0, l => l
  | _, [] => []
  | n + 1, a :: l => if p a then removeFirst p n l else a :: removeFirst p (n + 1) l

/-- The list without its last `n` elements that have a property. -/
def removeLast (p : α → Bool) (n : ℕ) (l : List α) : List α := (removeFirst p n l.reverse).reverse

@[simp] theorem removeFirst_zero (p : α → Bool) (l : List α) : removeFirst p 0 l = l := by
  cases l <;> rfl

@[simp] theorem removeFirst_nil (p : α → Bool) (n : ℕ) : removeFirst p n [] = [] := by
  cases n <;> rfl

/-- A head that meets the predicate is removed. -/
theorem removeFirst_cons_pos {p : α → Bool} {n : ℕ} {a : α} (l : List α) (h : p a = true) :
    removeFirst p (n + 1) (a :: l) = removeFirst p n l := if_pos h

/-- Another head stays. -/
theorem removeFirst_cons_neg {p : α → Bool} {n : ℕ} {a : α} (l : List α) (h : p a ≠ true) :
    removeFirst p (n + 1) (a :: l) = a :: removeFirst p (n + 1) l := if_neg h

/-- The elements with the property lose their first ones. -/
theorem filter_removeFirst (p : α → Bool) (n : ℕ) (l : List α) :
    (removeFirst p n l).filter p = (l.filter p).drop n := by
  induction l generalizing n with
  | nil => simp
  | cons a l ih =>
    cases n with
    | zero => simp
    | succ n =>
      by_cases ha : p a = true
      · rw [removeFirst_cons_pos l ha, ih, List.filter_cons_of_pos ha, List.drop_succ_cons]
      · rw [removeFirst_cons_neg l ha, List.filter_cons_of_neg ha, ih, List.filter_cons_of_neg ha]

/-- As many are removed as there are, up to the number asked for. -/
theorem length_removeFirst (p : α → Bool) (n : ℕ) (l : List α) :
    l.length - (removeFirst p n l).length = min n (l.filter p).length ∧
      (removeFirst p n l).length ≤ l.length := by
  induction l generalizing n with
  | nil => simp
  | cons a l ih =>
    cases n with
    | zero => simp
    | succ n =>
      by_cases ha : p a = true
      · have := ih n
        rw [removeFirst_cons_pos l ha, List.filter_cons_of_pos ha, List.length_cons,
          List.length_cons]
        omega
      · have := ih (n + 1)
        rw [removeFirst_cons_neg l ha, List.filter_cons_of_neg ha, List.length_cons,
          List.length_cons]
        omega

/-- What is left is what is not among the first. -/
theorem mem_removeFirst {p : α → Bool} {n : ℕ} {l : List α} {a : α} (ha : a ∈ l)
    (hfirst : a ∉ (l.filter p).take n) : a ∈ removeFirst p n l := by
  induction l generalizing n with
  | nil => exact absurd ha List.not_mem_nil
  | cons b l ih =>
    cases n with
    | zero => simpa using ha
    | succ n =>
      by_cases hb : p b = true
      · rw [List.filter_cons_of_pos hb, List.take_succ_cons, List.mem_cons, not_or] at hfirst
        rw [removeFirst_cons_pos l hb]
        exact ih ((List.mem_cons.mp ha).resolve_left hfirst.1) hfirst.2
      · rw [List.filter_cons_of_neg hb] at hfirst
        rw [removeFirst_cons_neg l hb]
        rcases List.mem_cons.mp ha with rfl | ha
        · exact List.mem_cons_self
        · exact List.mem_cons_of_mem _ (ih ha hfirst)

/-- Nothing is added. -/
theorem removeFirst_sublist (p : α → Bool) (n : ℕ) (l : List α) :
    (removeFirst p n l).Sublist l := by
  induction l generalizing n with
  | nil => simp
  | cons a l ih =>
    cases n with
    | zero => simp
    | succ n =>
      by_cases ha : p a = true
      · rw [removeFirst_cons_pos l ha]
        exact (ih n).cons a
      · rw [removeFirst_cons_neg l ha]
        exact (ih (n + 1)).cons_cons a

/-- The elements with the property lose their last ones. -/
theorem filter_removeLast (p : α → Bool) (n : ℕ) (l : List α) :
    (removeLast p n l).filter p = (l.filter p).rdrop n := by
  rw [removeLast, List.filter_reverse, filter_removeFirst, List.filter_reverse,
    List.rdrop_eq_reverse_drop_reverse]

/-- As many are removed as there are, up to the number asked for. -/
theorem length_removeLast (p : α → Bool) (n : ℕ) (l : List α) :
    l.length - (removeLast p n l).length = min n (l.filter p).length ∧
      (removeLast p n l).length ≤ l.length := by
  have h := length_removeFirst p n l.reverse
  rwa [List.length_reverse, List.filter_reverse, List.length_reverse,
    show (removeFirst p n l.reverse).length = (removeLast p n l).length from
      List.length_reverse.symm] at h

/-- What is left is what is not among the last. -/
theorem mem_removeLast {p : α → Bool} {n : ℕ} {l : List α} {a : α} (ha : a ∈ l)
    (hlast : a ∉ (l.filter p).rtake n) : a ∈ removeLast p n l := by
  rw [removeLast, List.mem_reverse]
  refine mem_removeFirst (List.mem_reverse.mpr ha) ?_
  rwa [List.filter_reverse, ← List.mem_reverse, ← List.rtake_eq_reverse_take_reverse]

/-- Nothing is added. -/
theorem removeLast_sublist (p : α → Bool) (n : ℕ) (l : List α) : (removeLast p n l).Sublist l := by
  have h := (removeFirst_sublist p n l.reverse).reverse
  rwa [List.reverse_reverse] at h

end SimpleGo.Lib
