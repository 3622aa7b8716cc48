import Mathlib.Data.List.GetD
import SimpleGo.Lib.Memory

/-!
# Writing to memory

A function that fills a buffer writes bytes one piece behind the other; what it writes in order
is one piece, and what lies elsewhere stays. `HoldsString m p s` says that the C string at an
offset is `s`. A struct in memory is its fields one
behind the other, a table its records.
-/

namespace SimpleGo.Lib

/-- Memory with the bytes `l` written at offset `p`. -/
def store (m : Mem) (p : ℕ) (l : List UInt8) : Mem := fun i =>
  if p ≤ i ∧ i < p + l.length then l.getD (i - p) 0 else m i

/-- The bytes `s` lie at offset `p`, with the first zero byte behind them. -/
def HoldsString (m : Mem) (p : ℕ) (s : List UInt8) : Prop := 0 ∉ s ∧ Holds m p (s ++ [0])

/-- In front of what is written, memory stays. -/
theorem store_of_lt (m : Mem) {p i : ℕ} (l : List UInt8) (h : i < p) : store m p l i = m i :=
  if_neg fun hi => absurd hi.1 (by omega)

/-- So it does behind it. -/
theorem store_of_ge (m : Mem) {p i : ℕ} (l : List UInt8) (h : p + l.length ≤ i) :
    store m p l i = m i :=
  if_neg fun hi => absurd hi.2 (by omega)

/-- What is written is there. -/
theorem store_add (m : Mem) (p : ℕ) (l : List UInt8) {i : ℕ} (h : i < l.length) :
    store m p l (p + i) = l.getD i 0 := by
  rw [store, if_pos (by omega), Nat.add_sub_cancel_left]

@[simp] theorem store_nil (m : Mem) (p : ℕ) : store m p [] = m := by
  funext i
  exact if_neg fun hi => absurd hi.2 (by simpa using hi.1)

/-- Two pieces, one behind the other, are one. -/
theorem store_append (m : Mem) (p : ℕ) (a b : List UInt8) :
    store (store m p a) (p + a.length) b = store m p (a ++ b) := by
  funext i
  simp only [store, List.length_append]
  by_cases hfirst : i < p + a.length
  · rw [if_neg (by omega)]
    by_cases hp : p ≤ i
    · rw [if_pos ⟨hp, hfirst⟩, if_pos (by omega), List.getD_append _ _ _ _ (by omega)]
    · rw [if_neg (by omega), if_neg (by omega)]
  · by_cases hsecond : i < p + a.length + b.length
    · rw [if_pos (by omega), if_pos (by omega), List.getD_append_right _ _ _ _ (by omega)]
      congr 1
      omega
    · rw [if_neg (by omega), if_neg (by omega), if_neg (by omega)]

/-- Whether bytes are held is decided by the memory they lie in. -/
theorem Holds.congr {m m' : Mem} {p : ℕ} {l : List UInt8} (h : Holds m p l)
    (heq : ∀ i < l.length, m' (p + i) = m (p + i)) : Holds m' p l :=
  (List.map_congr_left fun i hi => heq i (List.mem_range.mp hi)).trans h

/-- What is written is held. -/
theorem holds_store (m : Mem) (p : ℕ) (l : List UInt8) : Holds (store m p l) p l := by
  apply List.ext_getElem
  · exact window_length ..
  · intro i hi hi'
    simp only [window, List.getElem_map, List.getElem_range]
    rw [store_add m p l hi', List.getD_eq_getElem]

/-- What lies behind a write is still held. -/
theorem Holds.store_of_le {m : Mem} {q : ℕ} {l : List UInt8} (h : Holds m q l) {p : ℕ}
    {l' : List UInt8} (hle : p + l'.length ≤ q) : Holds (store m p l') q l :=
  h.congr fun i _ => store_of_ge m l' (by omega)

/-- So is what lies in front of it. -/
theorem Holds.store_of_ge {m : Mem} {q : ℕ} {l : List UInt8} (h : Holds m q l) {p : ℕ}
    {l' : List UInt8} (hle : q + l.length ≤ p) : Holds (store m p l') q l :=
  h.congr fun i _ => store_of_lt m l' (by omega)

/-- A string that is written is held. -/
theorem holdsString_store (m : Mem) (p : ℕ) {s : List UInt8} (hs : 0 ∉ s) :
    HoldsString (store m p (s ++ [0])) p s :=
  ⟨hs, holds_store m p _⟩

/-- A field that begins the bytes. -/
@[simp] theorem bytesAt_toList_append {n : ℕ} (a : Bytes n) (rest : List UInt8) :
    bytesAt (a.toList ++ rest) 0 n = a := by
  ext i hi
  simp [bytesAt, List.getElem?_append]

/-- A field behind other bytes. -/
theorem bytesAt_append_of_le {front : List UInt8} (rest : List UInt8) {p n : ℕ}
    (h : front.length ≤ p) : bytesAt (front ++ rest) p n = bytesAt rest (p - front.length) n := by
  ext i hi
  simp only [bytesAt, Vector.getElem_ofFn]
  rw [List.getD_append_right _ _ _ _ (by omega), Nat.sub_add_comm h]

/-- A field behind one byte. -/
theorem bytesAt_cons (b : UInt8) (rest : List UInt8) {p n : ℕ} (h : 0 < p) :
    bytesAt (b :: rest) p n = bytesAt rest (p - 1) n :=
  bytesAt_append_of_le rest (show [b].length ≤ p from h)

/-! ### Pieces of one length -/

variable {α β : Type*}

/-- Pieces of one length, one behind the other. -/
theorem length_flatMap {f : α → List β} {k : ℕ} (hf : ∀ a, (f a).length = k) (l : List α) :
    (l.flatMap f).length = k * l.length := by
  simp [List.length_flatMap, hf, Nat.mul_comm]

/-- Behind the pieces before it stands the piece of an element. -/
theorem drop_flatMap {f : α → List β} {k : ℕ} (hf : ∀ a, (f a).length = k) {l : List α} {i : ℕ}
    (hi : i < l.length) :
    (l.flatMap f).drop (k * i) = f l[i] ++ (l.drop (i + 1)).flatMap f := by
  induction l generalizing i with
  | nil => exact absurd hi (Nat.not_lt_zero i)
  | cons a l ih =>
    cases i with
    | zero => rfl
    | succ i =>
      rw [List.flatMap_cons, Nat.mul_succ, Nat.add_comm, ← List.drop_drop, List.drop_left' (hf a),
        ih (Nat.lt_of_succ_lt_succ hi)]
      rfl

end SimpleGo.Lib
