import SimpleGo.Lib.Memory

/-!
# Computations that log their accesses

Memory as a function answers at every offset, so a value does not say where it was read. A
`Logged` computation lists its accesses beside its value: what touches the memory goes through
a logged access, and a property of all accesses of a computation is proved from its parts.
-/

namespace SimpleGo.Lib

/-- A value, and the accesses made for it, in their order. -/
structure Logged (ε α : Type) where
  val : α
  log : List ε

namespace Logged

variable {ε ε' α β : Type}

instance : Monad (Logged ε) where
  pure a := { val := a, log := [] }
  bind x f := { val := (f x.val).val, log := x.log ++ (f x.val).log }

@[simp] theorem val_pure (a : α) : (pure a : Logged ε α).val = a := rfl

@[simp] theorem log_pure (a : α) : (pure a : Logged ε α).log = [] := rfl

/-- The value of two steps. -/
@[simp] theorem val_bind (x : Logged ε α) (f : α → Logged ε β) :
    (x >>= f).val = (f x.val).val := rfl

/-- The events of two steps follow each other. -/
@[simp] theorem log_bind (x : Logged ε α) (f : α → Logged ε β) :
    (x >>= f).log = x.log ++ (f x.val).log := rfl

/-- A branch is the branch that is taken. -/
@[simp] theorem val_ite (c : Prop) [Decidable c] (x y : Logged ε α) :
    (if c then x else y).val = if c then x.val else y.val := by
  split <;> rfl

/-- The same computation, with its accesses written another way. -/
def mapLog (f : ε → ε') (x : Logged ε α) : Logged ε' α := { val := x.val, log := x.log.map f }

@[simp] theorem val_mapLog (f : ε → ε') (x : Logged ε α) : (x.mapLog f).val = x.val := rfl

/-- Accesses that give no value. -/
def note (events : List ε) : Logged ε Unit := { val := (), log := events }

/-- Every access has a property. -/
def All (p : ε → Prop) (x : Logged ε α) : Prop := ∀ e ∈ x.log, p e

section All

variable {p : ε → Prop}

@[simp] theorem all_pure (a : α) : (pure a : Logged ε α).All p := by simp [All]

/-- A sequence has the property when its two parts have it. -/
@[simp] theorem all_bind (x : Logged ε α) (f : α → Logged ε β) :
    (x >>= f).All p ↔ x.All p ∧ (f x.val).All p := by
  simp only [All, log_bind, List.mem_append, or_imp, forall_and]

@[simp] theorem all_note (events : List ε) : (note events).All p ↔ ∀ e ∈ events, p e := Iff.rfl

@[simp] theorem all_mapLog (p : ε' → Prop) (f : ε → ε') (x : Logged ε α) :
    (x.mapLog f).All p ↔ x.All (p ∘ f) := by
  simp only [All, mapLog, List.mem_map, forall_exists_index, and_imp, forall_apply_eq_imp_iff₂,
    Function.comp_apply]

/-- A branch has the property when the branch that is taken does. -/
theorem all_ite (c : Prop) [Decidable c] (x y : Logged ε α) :
    (if c then x else y).All p ↔ (c → x.All p) ∧ (¬ c → y.All p) := by
  split <;> simp_all

/-- A weaker condition on the events. -/
theorem All.imp {q : ε → Prop} {x : Logged ε α} (h : x.All p) (hpq : ∀ e, p e → q e) : x.All q :=
  fun e he => hpq e (h e he)

end All

/-! ### Reading memory -/

section Reading

variable (m : Mem) (p n bound : ℕ)

/-- Read the `n` bytes from an offset on. -/
def reads (a : α) : Logged ℕ α := { val := a, log := List.range' p n }

/-- Read one byte. -/
def byteAt : Logged ℕ UInt8 := reads p 1 (m p)

/-- Read a big-endian 16-bit word. -/
def read16At : Logged ℕ ℕ := reads p 2 (read16 m p)

/-- Read a big-endian 32-bit word. -/
def read32At : Logged ℕ UInt32 := reads p 4 (read32 m p)

/-- Read the `n` bytes from an offset on as a list. -/
def windowAt : Logged ℕ (List UInt8) := reads p n (window m p n)

/-- Copy the `n` bytes from an offset on. -/
def windowBytesAt : Logged ℕ (Bytes n) := reads p n (windowBytes m p n)

/-- Logging a read keeps its value. -/
@[simp] theorem val_reads (a : α) : (reads p n a).val = a := rfl

@[simp] theorem val_byteAt : (byteAt m p).val = m p := rfl

@[simp] theorem val_read16At : (read16At m p).val = read16 m p := rfl

@[simp] theorem val_read32At : (read32At m p).val = read32 m p := rfl

@[simp] theorem val_windowAt : (windowAt m p n).val = window m p n := rfl

@[simp] theorem val_windowBytesAt : (windowBytesAt m p n).val = windowBytes m p n := rfl

/-- A property of all bytes read. -/
theorem all_reads (q : ℕ → Prop) (a : α) : (reads p n a).All q ↔ ∀ i < n, q (p + i) := by
  simp only [All, reads, List.mem_range'_1]
  constructor
  · intro h i hi
    exact h (p + i) ⟨by omega, by omega⟩
  · rintro h e ⟨hp, he⟩
    have hq := h (e - p) (by omega)
    rwa [Nat.add_sub_cancel' hp] at hq

/-- Every access is below a bound. -/
abbrev Below (x : Logged ℕ α) (bound : ℕ) : Prop := x.All (· < bound)

/-- A read stays below a bound when its last byte does. -/
theorem below_reads (a : α) : (reads p n a).Below bound ↔ n = 0 ∨ p + n ≤ bound := by
  simp only [All, reads, List.mem_range'_1]
  constructor
  · intro h
    rcases Nat.eq_zero_or_pos n with hn | hn
    · exact .inl hn
    · have hlast := h (p + n - 1) ⟨by omega, by omega⟩
      exact .inr (by omega)
  · rintro h e ⟨hp, he⟩
    omega

/-- A byte is read inside the bound exactly when its position is. -/
@[simp] theorem below_byteAt : (byteAt m p).Below bound ↔ p < bound := by
  rw [byteAt, below_reads]
  omega

/-- Two bytes. -/
@[simp] theorem below_read16At : (read16At m p).Below bound ↔ p + 2 ≤ bound := by
  rw [read16At, below_reads]
  omega

/-- Four bytes. -/
@[simp] theorem below_read32At : (read32At m p).Below bound ↔ p + 4 ≤ bound := by
  rw [read32At, below_reads]
  omega

/-- A window, which reads nothing when it is empty. -/
@[simp] theorem below_windowAt : (windowAt m p n).Below bound ↔ n = 0 ∨ p + n ≤ bound :=
  below_reads _ _ _ _

/-- The same for a window of fixed size. -/
@[simp] theorem below_windowBytesAt :
    (windowBytesAt m p n).Below bound ↔ n = 0 ∨ p + n ≤ bound := below_reads _ _ _ _

/-- A larger bound. -/
theorem Below.mono {x : Logged ℕ α} {b b' : ℕ} (h : x.Below b) (hb : b ≤ b') : x.Below b' :=
  h.imp fun _ he => Nat.lt_of_lt_of_le he hb

end Reading

end Logged

end SimpleGo.Lib
