import Mathlib.Data.Set.Function
import Mathlib.Logic.Function.Iterate

/-!
# Orbits of an injective function

A hash chain is an orbit. When the step is injective and a start has no predecessor, a value
of the orbit determines its position, and orbits of different starts are disjoint.
-/

namespace SimpleGo.Lib

variable {α : Type*} {f : α → α}

/-- Values of two orbits coincide only at the same position of the same orbit. -/
theorem iterate_eq_iterate (hf : Function.Injective f) {a b : α} (ha : ∀ x, f x ≠ a)
    (hb : ∀ x, f x ≠ b) {i j : ℕ} (h : f^[i] a = f^[j] b) : i = j ∧ a = b := by
  induction i generalizing j with
  | zero =>
    cases j with
    | zero => exact ⟨rfl, h⟩
    | succ j =>
      rw [Function.iterate_succ_apply'] at h
      exact absurd h.symm (ha _)
  | succ i ih =>
    cases j with
    | zero =>
      rw [Function.iterate_succ_apply'] at h
      exact absurd h (hb _)
    | succ j =>
      rw [Function.iterate_succ_apply', Function.iterate_succ_apply'] at h
      obtain ⟨hij, hab⟩ := ih (hf h)
      exact ⟨congrArg (· + 1) hij, hab⟩

end SimpleGo.Lib
