import Mathlib.Data.List.Basic
import Mathlib.Data.Nat.Notation
import Mathlib.Logic.Function.Basic

/-!
# Key-value stores written one entry at a time

A store is a partial map from keys to values. Programs write entries one by one, so an
operation leaves a list of writes, and a power loss between two of them leaves the store
after some prefix of that list.
-/

namespace SimpleGo.Lib

/-- A partial map from keys to values. -/
abbrev Store (κ β : Type*) := κ → Option β

namespace Store

variable {κ β : Type*} [DecidableEq κ]

/-- Set one entry. -/
def put (s : Store κ β) (k : κ) (v : β) : Store κ β := Function.update s k (some v)

/-- Remove one entry. -/
def erase (s : Store κ β) (k : κ) : Store κ β := Function.update s k none

/-- Perform writes in order. -/
def putAll (s : Store κ β) (writes : List (κ × β)) : Store κ β :=
  writes.foldl (fun s w => s.put w.1 w.2) s

/-- The writes that land when each of them may be lost. -/
def landed {α : Type*} (lands : ℕ → Bool) (writes : List α) : List α :=
  (writes.zipIdx.filter fun w => lands w.2).map Prod.fst

/-- Remove entries in order. -/
def eraseAll (s : Store κ β) (keys : List κ) : Store κ β := keys.foldl erase s

/-- Set (`some`) or remove (`none`) the entries of a numbered family of keys in order; an
entry that is `none` altogether is left alone. -/
def setFamily (s : Store κ β) (key : ℕ → κ) (entry : ℕ → Option (Option β)) (n : ℕ) : Store κ β :=
  (List.range n).foldl (fun s i => ((entry i).map (Function.update s (key i))).getD s) s

/-- Perform writes (`some`) and deletions (`none`) in order. -/
def applyAll (s : Store κ β) (writes : List (κ × Option β)) : Store κ β :=
  writes.foldl (fun s w => Function.update s w.1 w.2) s

@[simp] theorem put_self (s : Store κ β) (k : κ) (v : β) : s.put k v k = some v :=
  Function.update_self ..

/-- Other keys keep their entries. -/
theorem put_of_ne (s : Store κ β) {k k' : κ} (v : β) (h : k' ≠ k) : s.put k v k' = s k' :=
  Function.update_of_ne h ..

@[simp] theorem erase_self (s : Store κ β) (k : κ) : s.erase k k = none :=
  Function.update_self ..

/-- Other keys keep their entries. -/
theorem erase_of_ne (s : Store κ β) {k k' : κ} (h : k' ≠ k) : s.erase k k' = s k' :=
  Function.update_of_ne h ..

@[simp] theorem putAll_nil (s : Store κ β) : s.putAll [] = s := rfl

@[simp] theorem putAll_cons (s : Store κ β) (w : κ × β) (writes : List (κ × β)) :
    s.putAll (w :: writes) = (s.put w.1 w.2).putAll writes := rfl

/-- Writes one after the other. -/
theorem putAll_append (s : Store κ β) (first second : List (κ × β)) :
    s.putAll (first ++ second) = (s.putAll first).putAll second := List.foldl_append

/-- A key that no write names keeps its entry. -/
theorem putAll_of_forall_ne (s : Store κ β) (writes : List (κ × β)) (k : κ)
    (h : ∀ w ∈ writes, w.1 ≠ k) : s.putAll writes k = s k := by
  induction writes generalizing s with
  | nil => rfl
  | cons w writes ih =>
    rw [putAll_cons, ih _ fun w' hw' => h w' (List.mem_cons_of_mem _ hw'),
      put_of_ne _ _ (h w List.mem_cons_self).symm]

@[simp] theorem applyAll_nil (s : Store κ β) : s.applyAll [] = s := rfl

@[simp] theorem applyAll_cons (s : Store κ β) (w : κ × Option β) (writes : List (κ × Option β)) :
    s.applyAll (w :: writes) = applyAll (Function.update s w.1 w.2) writes := rfl

/-- Changes one after the other. -/
theorem applyAll_append (s : Store κ β) (first second : List (κ × Option β)) :
    s.applyAll (first ++ second) = (s.applyAll first).applyAll second := List.foldl_append

/-- A key that no write names keeps its entry. -/
theorem applyAll_of_forall_ne (s : Store κ β) (writes : List (κ × Option β)) (k : κ)
    (h : ∀ w ∈ writes, w.1 ≠ k) : s.applyAll writes k = s k := by
  induction writes generalizing s with
  | nil => rfl
  | cons w writes ih =>
    rw [applyAll_cons, ih _ fun w' hw' => h w' (List.mem_cons_of_mem _ hw'),
      Function.update_of_ne (h w List.mem_cons_self).symm]

/-- A key that is not written has its old entry, and one that is has that of a write to it. -/
theorem applyAll_eq_or (s : Store κ β) (writes : List (κ × Option β)) (k : κ) :
    (s.applyAll writes k = s k ∧ k ∉ writes.map Prod.fst) ∨ (k, s.applyAll writes k) ∈ writes := by
  induction writes generalizing s with
  | nil => exact .inl ⟨rfl, by simp⟩
  | cons w writes ih =>
    rw [applyAll_cons]
    rcases ih (Function.update s w.1 w.2) with ⟨h, hno⟩ | h
    · rw [h]
      by_cases hk : k = w.1
      · subst hk
        rw [Function.update_self]
        exact .inr List.mem_cons_self
      · rw [Function.update_of_ne hk, List.map_cons, List.mem_cons, not_or]
        exact .inl ⟨rfl, hk, hno⟩
    · exact .inr (List.mem_cons_of_mem _ h)

/-- A prefix of two lists ends in the first of them, or it goes on into the second. -/
theorem prefix_append_cases {α : Type*} {p first second : List α} (h : p <+: first ++ second) :
    p <+: first ∨ ∃ q, q <+: second ∧ p = first ++ q := by
  rcases Nat.le_total p.length first.length with hle | hle
  · exact .inl (List.prefix_of_prefix_length_le h (List.prefix_append first second) hle)
  · obtain ⟨q, rfl⟩ := List.prefix_of_prefix_length_le (List.prefix_append first second) h hle
    exact .inr ⟨q, (List.prefix_append_right_inj first).1 h, rfl⟩

/-- A family of writes to distinct keys leaves each of them its own entry. -/
theorem applyAll_map {α : Type*} (s : Store κ β) (l : List α) (key : α → κ)
    (entry : α → Option β) (hinj : ∀ a ∈ l, ∀ b ∈ l, key a = key b → a = b) {a : α} (ha : a ∈ l) :
    s.applyAll (l.map fun a => (key a, entry a)) (key a) = entry a := by
  induction l generalizing s with
  | nil => cases ha
  | cons b l ih =>
    rw [List.map_cons, applyAll_cons]
    by_cases hrest : a ∈ l
    · exact ih _ (fun c hc d hd => hinj c (List.mem_cons_of_mem _ hc) d (List.mem_cons_of_mem _ hd))
        hrest
    · obtain rfl : a = b := (List.mem_cons.1 ha).resolve_right hrest
      rw [applyAll_of_forall_ne, Function.update_self]
      intro w hw hsame
      obtain ⟨c, hc, rfl⟩ := List.mem_map.1 hw
      exact hrest (hinj c (List.mem_cons_of_mem _ hc) a List.mem_cons_self hsame ▸ hc)

@[simp] theorem landed_nil {α : Type*} (lands : ℕ → Bool) : landed lands ([] : List α) = [] := rfl

@[simp] theorem landed_singleton {α : Type*} (lands : ℕ → Bool) (w : α) :
    landed lands [w] = if lands 0 then [w] else [] := by
  cases h : lands 0 <;> simp [landed, h]

/-- Without a loss every write lands. -/
@[simp] theorem landed_all {α : Type*} (writes : List α) :
    landed (fun _ => true) writes = writes := by
  simp [landed, List.zipIdx_map_fst]

/-- The writes that land are among the attempted ones, in their order. -/
theorem landed_sublist {α : Type*} (lands : ℕ → Bool) (writes : List α) :
    (landed lands writes).Sublist writes := by
  have h : (landed lands writes).Sublist (writes.zipIdx.map Prod.fst) :=
    List.filter_sublist.map Prod.fst
  rwa [List.zipIdx_map_fst] at h

/-- Erasing a list of keys empties exactly those entries. -/
theorem eraseAll_apply (s : Store κ β) (keys : List κ) (k : κ) :
    s.eraseAll keys k = if k ∈ keys then none else s k := by
  induction keys generalizing s with
  | nil => simp [eraseAll]
  | cons a keys ih =>
    change (s.erase a).eraseAll keys k = _
    rw [ih]
    by_cases hk : k ∈ keys
    · simp [hk]
    · by_cases ha : k = a
      · subst ha
        simp [hk]
      · simp [hk, ha, erase_of_ne s ha]

@[simp] theorem setFamily_zero (s : Store κ β) (key : ℕ → κ) (entry : ℕ → Option (Option β)) :
    s.setFamily key entry 0 = s := rfl

/-- A family of one member more. -/
theorem setFamily_succ (s : Store κ β) (key : ℕ → κ) (entry : ℕ → Option (Option β)) (n : ℕ) :
    s.setFamily key entry (n + 1) =
      ((entry n).map (Function.update (s.setFamily key entry n) (key n))).getD
        (s.setFamily key entry n) := by
  rw [setFamily, List.range_succ, List.foldl_append]
  rfl

/-- A key outside the family keeps its entry. -/
theorem setFamily_of_ne (s : Store κ β) (key : ℕ → κ) (entry : ℕ → Option (Option β)) {n : ℕ}
    {k : κ} (h : ∀ i < n, key i ≠ k) : s.setFamily key entry n k = s k := by
  induction n with
  | zero => rfl
  | succ n ih =>
    have hkeep := ih fun i hi => h i (Nat.lt_succ_of_lt hi)
    rw [setFamily_succ]
    cases entry n with
    | none => exact hkeep
    | some e =>
      change Function.update (s.setFamily key entry n) (key n) e k = s k
      rw [Function.update_of_ne (h n (Nat.lt_succ_self n)).symm, hkeep]

/-- A key of the family has its own entry. -/
theorem setFamily_key (s : Store κ β) (key : ℕ → κ) (entry : ℕ → Option (Option β)) {n : ℕ}
    (hinj : ∀ i < n, ∀ j < n, key i = key j → i = j) {j : ℕ} (hj : j < n) :
    s.setFamily key entry n (key j) = (entry j).getD (s (key j)) := by
  induction n with
  | zero => exact absurd hj (Nat.not_lt_zero j)
  | succ n ih =>
    have hinj' : ∀ i < n, ∀ j < n, key i = key j → i = j := fun i hi j hj =>
      hinj i (Nat.lt_succ_of_lt hi) j (Nat.lt_succ_of_lt hj)
    rw [setFamily_succ]
    by_cases hjn : j = n
    · subst hjn
      have hbefore : s.setFamily key entry j (key j) = s (key j) :=
        setFamily_of_ne s key entry fun i hi he =>
          absurd (hinj i (Nat.lt_succ_of_lt hi) j hj he) (Nat.ne_of_lt hi)
      cases entry j with
      | none => exact hbefore
      | some e => exact Function.update_self ..
    · have hlt : j < n := by omega
      have hne : key j ≠ key n := fun he => hjn (hinj j hj n (Nat.lt_succ_self n) he)
      cases entry n with
      | none => exact ih hinj' hlt
      | some e =>
        change Function.update (s.setFamily key entry n) (key n) e (key j) = _
        rw [Function.update_of_ne hne]
        exact ih hinj' hlt

end Store

end SimpleGo.Lib
