import Mathlib.Data.List.Basic
import Mathlib.Data.Nat.Notation

/-!
# Runs of a deterministic step function

Nondeterminism is in the labels: a label names the operation together with everything the
environment decides (drawn keys, faults, delivered bytes). A run is then a fold, and an
invariant is proved from its initial state and one step lemma. A property that holds only
while the environment respects a condition uses `StepsMeet`, which puts the condition on
every state of the run together with the label taken there.
-/

namespace SimpleGo.Lib

variable {S A : Type*}

/-- The state after a run. -/
def runFrom (step : S → A → S) (s : S) (labels : List A) : S := labels.foldl step s

/-- Each label is taken in a state where it meets the condition. -/
def StepsMeet (step : S → A → S) (cond : S → A → Prop) : S → List A → Prop
  | _, [] => True
  | s, a :: labels => cond s a ∧ StepsMeet step cond (step s a) labels

@[simp] theorem runFrom_nil (step : S → A → S) (s : S) : runFrom step s [] = s := rfl

@[simp] theorem runFrom_cons (step : S → A → S) (s : S) (a : A) (labels : List A) :
    runFrom step s (a :: labels) = runFrom step (step s a) labels := rfl

/-- A run in two parts. -/
theorem runFrom_append (step : S → A → S) (s : S) (first second : List A) :
    runFrom step s (first ++ second) = runFrom step (runFrom step s first) second :=
  List.foldl_append

@[simp] theorem stepsMeet_nil (step : S → A → S) (cond : S → A → Prop) (s : S) :
    StepsMeet step cond s [] ↔ True := Iff.rfl

@[simp] theorem stepsMeet_cons (step : S → A → S) (cond : S → A → Prop) (s : S) (a : A)
    (labels : List A) :
    StepsMeet step cond s (a :: labels) ↔ cond s a ∧ StepsMeet step cond (step s a) labels :=
  Iff.rfl

/-- Whether a run meets a decidable condition can be computed. -/
instance decidableStepsMeet (step : S → A → S) (cond : S → A → Prop)
    [∀ s a, Decidable (cond s a)] : ∀ s labels, Decidable (StepsMeet step cond s labels)
  | _, [] => isTrue trivial
  | s, a :: labels =>
    have := decidableStepsMeet step cond (step s a) labels
    inferInstanceAs (Decidable (cond s a ∧ StepsMeet step cond (step s a) labels))

/-- A run meets a condition exactly when both parts of it do. -/
theorem stepsMeet_append (step : S → A → S) (cond : S → A → Prop) (s : S)
    (first second : List A) :
    StepsMeet step cond s (first ++ second) ↔
      StepsMeet step cond s first ∧ StepsMeet step cond (runFrom step s first) second := by
  induction first generalizing s with
  | nil => simp
  | cons a first ih => simp [ih, and_assoc]

/-- A weaker condition is met by the same runs. -/
theorem StepsMeet.imp {step : S → A → S} {cond cond' : S → A → Prop}
    (himp : ∀ s a, cond s a → cond' s a) {s : S} {labels : List A}
    (h : StepsMeet step cond s labels) : StepsMeet step cond' s labels := by
  induction labels generalizing s with
  | nil => trivial
  | cons a labels ih => exact ⟨himp s a h.1, ih h.2⟩

/-- Conditions that agree on every step are met by the same runs. -/
theorem stepsMeet_congr {step : S → A → S} {cond cond' : S → A → Prop}
    (h : ∀ s a, cond s a ↔ cond' s a) (s : S) (labels : List A) :
    StepsMeet step cond s labels ↔ StepsMeet step cond' s labels :=
  ⟨StepsMeet.imp fun s a => (h s a).1, StepsMeet.imp fun s a => (h s a).2⟩

/-- The invariant rule: it holds at the start and every admitted step keeps it. -/
theorem StepsMeet.invariant {step : S → A → S} {cond : S → A → Prop} {inv : S → Prop}
    (hstep : ∀ s a, inv s → cond s a → inv (step s a)) {s : S} {labels : List A}
    (h : StepsMeet step cond s labels) (hs : inv s) : inv (runFrom step s labels) := by
  induction labels generalizing s with
  | nil => exact hs
  | cons a labels ih => exact ih h.2 (hstep s a hs h.1)

/-- The invariant rule for steps that the labels of the run keep. -/
theorem runFrom_invariant_of_mem {step : S → A → S} {inv : S → Prop} {labels : List A}
    (hstep : ∀ a ∈ labels, ∀ s, inv s → inv (step s a)) (s : S) (hs : inv s) :
    inv (runFrom step s labels) := by
  induction labels generalizing s with
  | nil => exact hs
  | cons a labels ih =>
    exact ih (fun b hb => hstep b (List.mem_cons_of_mem _ hb)) _ (hstep a List.mem_cons_self s hs)

/-- A fact that follows from the invariant and the condition holds at every step of the run. -/
theorem StepsMeet.invariant_step {step : S → A → S} {cond : S → A → Prop} {inv : S → Prop}
    {post : S → A → Prop} (hstep : ∀ s a, inv s → cond s a → inv (step s a))
    (hpost : ∀ s a, inv s → cond s a → post s a) {s : S} {labels : List A}
    (h : StepsMeet step cond s labels) (hs : inv s) : StepsMeet step post s labels := by
  induction labels generalizing s with
  | nil => trivial
  | cons a labels ih => exact ⟨hpost s a hs h.1, ih h.2 (hstep s a hs h.1)⟩

/-- Where a step keeps a property exactly when it meets a condition, the property holds in every
state of a run exactly when every step meets the condition. -/
theorem forall_prefix_iff_stepsMeet {step : S → A → S} {cond : S → A → Prop} (inv : S → Prop)
    (hstep : ∀ s a, inv s → (inv (step s a) ↔ cond s a)) {s : S} (hs : inv s) (labels : List A) :
    (∀ front, front <+: labels → inv (runFrom step s front)) ↔ StepsMeet step cond s labels := by
  induction labels generalizing s with
  | nil => simpa using hs
  | cons a labels ih =>
    constructor
    · intro h
      have hnext : inv (step s a) := h [a] ⟨labels, rfl⟩
      refine ⟨(hstep s a hs).mp hnext, (ih hnext).mp fun front hfront => ?_⟩
      exact h (a :: front) (List.cons_prefix_cons.mpr ⟨rfl, hfront⟩)
    · rintro ⟨hcond, hrest⟩ front hfront
      cases front with
      | nil => exact hs
      | cons b front =>
        obtain ⟨rfl, htail⟩ := List.cons_prefix_cons.mp hfront
        exact (ih ((hstep s b hs).mpr hcond)).mpr hrest front htail

end SimpleGo.Lib
