import Mathlib.Algebra.Group.Int.Defs
import Mathlib.Algebra.Group.Nat.Defs
import Mathlib.Data.List.Basic
import Mathlib.Data.Nat.Notation
import Mathlib.Tactic.Common

/-!
# Byte windows and big-endian words

A parser written in C sees its input as memory from a pointer on: every offset can be
read, and bytes past the end of a message are whatever lies there. `Mem` is that view.
`Holds m p l` says that the bytes `l` are in memory at offset `p`; the reading functions
are computed from such facts, so a format is proved by splitting what is held.
-/

namespace SimpleGo.Lib

/-- Memory as seen from a pointer: a byte at every offset. -/
abbrev Mem := ℕ → UInt8

/-- A fixed-size byte array. -/
abbrev Bytes (n : ℕ) := Vector UInt8 n

/-- The all-zero array. -/
def zeroBytes (n : ℕ) : Bytes n := Vector.replicate n 0

/-- Big-endian 16-bit word; higher bits are cut as in `(n >> 8) & 0xFF`, `n & 0xFF`. -/
def be16 (n : ℕ) : List UInt8 := [UInt8.ofNat (n / 256), UInt8.ofNat n]

/-- Big-endian 32-bit word. -/
def be32 (w : UInt32) : List UInt8 :=
  [UInt8.ofNat (w.toNat / 2 ^ 24), UInt8.ofNat (w.toNat / 2 ^ 16),
    UInt8.ofNat (w.toNat / 2 ^ 8), UInt8.ofNat w.toNat]

/-- Big-endian 64-bit word. -/
def be64 (w : UInt64) : List UInt8 :=
  [UInt8.ofNat (w.toNat / 2 ^ 56), UInt8.ofNat (w.toNat / 2 ^ 48),
    UInt8.ofNat (w.toNat / 2 ^ 40), UInt8.ofNat (w.toNat / 2 ^ 32),
    UInt8.ofNat (w.toNat / 2 ^ 24), UInt8.ofNat (w.toNat / 2 ^ 16),
    UInt8.ofNat (w.toNat / 2 ^ 8), UInt8.ofNat w.toNat]

/-- Read a big-endian 16-bit word. -/
def read16 (m : Mem) (p : ℕ) : ℕ := (m p).toNat * 256 + (m (p + 1)).toNat

/-- Read a big-endian 32-bit word. -/
def read32 (m : Mem) (p : ℕ) : UInt32 :=
  UInt32.ofNat ((m p).toNat * 2 ^ 24 + (m (p + 1)).toNat * 2 ^ 16 +
    (m (p + 2)).toNat * 2 ^ 8 + (m (p + 3)).toNat)

/-- Read a big-endian 64-bit word. -/
def read64 (m : Mem) (p : ℕ) : UInt64 :=
  UInt64.ofNat ((m p).toNat * 2 ^ 56 + (m (p + 1)).toNat * 2 ^ 48 +
    (m (p + 2)).toNat * 2 ^ 40 + (m (p + 3)).toNat * 2 ^ 32 +
    (m (p + 4)).toNat * 2 ^ 24 + (m (p + 5)).toNat * 2 ^ 16 +
    (m (p + 6)).toNat * 2 ^ 8 + (m (p + 7)).toNat)

/-- The `n` bytes from offset `p`. -/
def window (m : Mem) (p n : ℕ) : List UInt8 := (List.range n).map fun i => m (p + i)

/-- The `n` bytes from offset `p` as a fixed-size array. -/
def windowBytes (m : Mem) (p n : ℕ) : Bytes n := Vector.ofFn fun i => m (p + i.val)

/-- The `n` bytes of a list from offset `p`, as a fixed-size array. -/
def bytesAt (l : List UInt8) (p n : ℕ) : Bytes n := Vector.ofFn fun i => l.getD (p + i.val) 0

/-- Memory that starts with the given bytes and goes on as `rest`. -/
def memOf (l : List UInt8) (rest : Mem) : Mem := fun i => l.getD i (rest i)

/-- The bytes `l` lie in memory at offset `p`. -/
def Holds (m : Mem) (p : ℕ) (l : List UInt8) : Prop := window m p l.length = l

@[simp] theorem be16_length (n : ℕ) : (be16 n).length = 2 := rfl

@[simp] theorem be32_length (w : UInt32) : (be32 w).length = 4 := rfl

@[simp] theorem be64_length (w : UInt64) : (be64 w).length = 8 := rfl

@[simp] theorem window_length (m : Mem) (p n : ℕ) : (window m p n).length = n := by
  simp [window]

/-- A window of known contents reads its own list back. -/
theorem Holds.window_eq {m : Mem} {p n : ℕ} {l : List UInt8} (h : Holds m p l)
    (hn : n = l.length) : window m p n = l := hn ▸ h

/-- A window begins with its first byte. -/
theorem window_succ (m : Mem) (p n : ℕ) :
    window m p (n + 1) = m p :: window m (p + 1) n := by
  simp only [window, List.range_succ_eq_map, List.map_cons, Nat.add_zero, List.map_map,
    Function.comp_def]
  congr 1
  apply List.map_congr_left
  intro i _
  congr 1
  omega

/-- A window in two parts. -/
theorem window_add (m : Mem) (p a b : ℕ) :
    window m p (a + b) = window m p a ++ window m (p + a) b := by
  induction a generalizing p with
  | zero => simp [window]
  | succ a ih =>
    rw [Nat.succ_add, window_succ, ih, window_succ, List.cons_append]
    congr 3
    omega

@[simp] theorem holds_nil (m : Mem) (p : ℕ) : Holds m p [] := rfl

/-- Holding a nonempty list is holding its head, then its tail one byte further. -/
theorem holds_cons {m : Mem} {p : ℕ} {x : UInt8} {l : List UInt8} :
    Holds m p (x :: l) ↔ m p = x ∧ Holds m (p + 1) l := by
  simp only [Holds, List.length_cons, window_succ, List.cons.injEq]

/-- Holding a concatenation is holding both parts, the second after the first. -/
theorem holds_append {m : Mem} {p : ℕ} {a b : List UInt8} :
    Holds m p (a ++ b) ↔ Holds m p a ∧ Holds m (p + a.length) b := by
  simp only [Holds, List.length_append, window_add]
  constructor
  · intro h
    exact List.append_inj h (window_length _ _ _)
  · rintro ⟨ha, hb⟩
    rw [ha, hb]

/-- Memory built from a list holds that list at its start. -/
theorem holds_memOf (l : List UInt8) (rest : Mem) : Holds (memOf l rest) 0 l := by
  apply List.ext_getElem
  · simp
  · intro i h₁ h₂
    simp [window, memOf, h₂]

/-- A byte of a held list. -/
theorem Holds.getElem {m : Mem} {p : ℕ} {l : List UInt8} (h : Holds m p l) (i : ℕ)
    (hi : i < l.length) : m (p + i) = l[i] := by
  have hw := congrArg (fun w : List UInt8 => w[i]?) h
  simpa [window, hi] using hw

/-- A byte is the number modulo 256. -/
theorem toNat_ofNat_mod (n : ℕ) : (UInt8.ofNat n).toNat = n % 256 := by
  simp

/-- A 16-bit word is below `2 ^ 16`. -/
theorem read16_lt (m : Mem) (p : ℕ) : read16 m p < 65536 := by
  have hhigh := (m p).toNat_lt
  have hlow := (m (p + 1)).toNat_lt
  rw [read16]
  omega

/-- A 16-bit word below `2 ^ 16` is read back. -/
theorem read16_of_holds {m : Mem} {p n : ℕ} (h : Holds m p (be16 n)) (hn : n < 65536) :
    read16 m p = n := by
  rw [be16, holds_cons, holds_cons] at h
  rw [read16, h.1, h.2.1, toNat_ofNat_mod, toNat_ofNat_mod]
  omega

/-- A 32-bit word is read back. -/
theorem read32_of_holds {m : Mem} {p : ℕ} {w : UInt32} (h : Holds m p (be32 w)) :
    read32 m p = w := by
  rw [be32, holds_cons, holds_cons, holds_cons, holds_cons] at h
  have hw := w.toNat_lt
  have e : w.toNat / 2 ^ 24 % 256 * 2 ^ 24 + w.toNat / 2 ^ 16 % 256 * 2 ^ 16 +
      w.toNat / 2 ^ 8 % 256 * 2 ^ 8 + w.toNat % 256 = w.toNat := by omega
  rw [read32, h.1, h.2.1, h.2.2.1, h.2.2.2.1]
  simp only [toNat_ofNat_mod, e, UInt32.ofNat_toNat]

/-- A 64-bit word is read back. -/
theorem read64_of_holds {m : Mem} {p : ℕ} {w : UInt64} (h : Holds m p (be64 w)) :
    read64 m p = w := by
  rw [be64, holds_cons, holds_cons, holds_cons, holds_cons, holds_cons, holds_cons, holds_cons,
    holds_cons] at h
  obtain ⟨h₀, h₁, h₂, h₃, h₄, h₅, h₆, h₇, -⟩ := h
  have hw := w.toNat_lt
  have e : w.toNat / 2 ^ 56 % 256 * 2 ^ 56 + w.toNat / 2 ^ 48 % 256 * 2 ^ 48 +
      w.toNat / 2 ^ 40 % 256 * 2 ^ 40 + w.toNat / 2 ^ 32 % 256 * 2 ^ 32 +
      w.toNat / 2 ^ 24 % 256 * 2 ^ 24 + w.toNat / 2 ^ 16 % 256 * 2 ^ 16 +
      w.toNat / 2 ^ 8 % 256 * 2 ^ 8 + w.toNat % 256 = w.toNat := by omega
  rw [read64, h₀, h₁, h₂, h₃, h₄, h₅, h₆, h₇]
  simp only [toNat_ofNat_mod, e, UInt64.ofNat_toNat]

/-- A held array is read back. -/
theorem windowBytes_of_holds {m : Mem} {p n : ℕ} {v : Bytes n} (h : Holds m p v.toList) :
    windowBytes m p n = v := by
  apply Vector.ext
  intro i hi
  have hg := h.getElem i (by simpa using hi)
  simpa [windowBytes] using hg

/-- The list of a window array is the window. -/
theorem windowBytes_toList (m : Mem) (p n : ℕ) : (windowBytes m p n).toList = window m p n := by
  apply List.ext_getElem
  · simp
  · intro i h₁ h₂
    simp [windowBytes, window]

end SimpleGo.Lib
