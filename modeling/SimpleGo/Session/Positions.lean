import SimpleGo.Ratchet.RootChain
import SimpleGo.Session.Adversary

/-!
# Positions of messages

Every message of a session has a position: the level of its chain and its number on that
chain. Level 0 is the chain of the all-zero key, which stands in a party that has not received
yet and is no secret; the chain of root level `n` has level `n + 1`. A message key determines
its position, and the message keys above level 0 are secrets.
-/

namespace SimpleGo

open Lib

variable {K : Type}

/-- The start of the chain of a level: the zero key at level 0, a chain of root level `n` at
level `n + 1`. -/
inductive ChainStart (P : Primitives K) (dhCombined : List UInt8) : ℕ → K → Prop
  | zero : ChainStart P dhCombined 0 P.zeroKey
  | root {level : ℕ} {chain : K} : ChainAt P dhCombined level chain →
      ChainStart P dhCombined (level + 1) chain

/-- A chain key at a position. -/
def KeyAt (P : Primitives K) (dhCombined : List UInt8) (level index : ℕ) (chainKey : K) : Prop :=
  ∃ chain, ChainStart P dhCombined level chain ∧ chainKey = P.skipChain index chain

/-- No chain key has this key as its message key. -/
def NotMessageKey (P : Primitives K) (key : K) : Prop :=
  ∀ chainKey, key ≠ (P.kdfChain chainKey).messageKey

section Positions

variable {P : Primitives K} {dhCombined : List UInt8}

/-- No later key of a chain starts one. -/
theorem ChainStart.ne_next (hP : P.CollisionFree) {level : ℕ} {chain : K}
    (h : ChainStart P dhCombined level chain) (x : K) : P.nextChainKey x ≠ chain := by
  cases h with
  | zero => exact zeroKey_ne_next hP x
  | root h => exact h.ne_next hP x

/-- A chain start has one level. -/
theorem ChainStart.level_unique (hP : P.CollisionFree) {level level' : ℕ} {chain : K}
    (h : ChainStart P dhCombined level chain) (h' : ChainStart P dhCombined level' chain) :
    level = level' := by
  cases h with
  | zero =>
    generalize hzero : P.zeroKey = chain at h'
    cases h' with
    | zero => rfl
    | root h' =>
      obtain ⟨_, _, _, -, hchain⟩ := h'
      exact absurd (hzero.trans hchain).symm (hP.ne_zero _ _)
  | root h =>
    cases h' with
    | zero =>
      obtain ⟨_, _, _, -, hchain⟩ := h
      exact absurd hchain.symm (hP.ne_zero _ _)
    | root h' => rw [h.level_unique hP h']

/-- A message key has one position. -/
theorem KeyAt.unique (hP : P.CollisionFree) {level index level' index' : ℕ} {key key' : K}
    (h : KeyAt P dhCombined level index key) (h' : KeyAt P dhCombined level' index' key')
    (heq : (P.kdfChain key).messageKey = (P.kdfChain key').messageKey) :
    level = level' ∧ index = index' ∧ key = key' := by
  obtain ⟨chain, hstart, rfl⟩ := h
  obtain ⟨chain', hstart', rfl⟩ := h'
  obtain ⟨rfl, rfl⟩ := messageKey_skipChain_inj hP (hstart.ne_next hP) (hstart'.ne_next hP) heq
  exact ⟨hstart.level_unique hP hstart', rfl, rfl⟩

/-- Skipped messages move the position. -/
theorem KeyAt.skip {level index : ℕ} {key : K} (h : KeyAt P dhCombined level index key) (n : ℕ) :
    KeyAt P dhCombined level (index + n) (P.skipChain n key) := by
  obtain ⟨chain, hstart, rfl⟩ := h
  exact ⟨chain, hstart, by rw [← P.skipChain_add, Nat.add_comm]⟩

/-- One message moves the position by one. -/
theorem KeyAt.next {level index : ℕ} {key : K} (h : KeyAt P dhCombined level index key) :
    KeyAt P dhCombined level (index + 1) (P.nextChainKey key) := h.skip 1

/-- The first key of a chain. -/
theorem ChainAt.keyAt {level : ℕ} {chain : K} (h : ChainAt P dhCombined level chain) :
    KeyAt P dhCombined (level + 1) 0 chain := ⟨chain, .root h, rfl⟩

/-- A root key is a secret of the session. -/
theorem RootAt.secret {level : ℕ} {key : K} (h : RootAt P dhCombined level key) :
    SessionSecret P dhCombined key := by
  induction h with
  | x3dh => exact .x3dh 2
  | root dhOut kemSecret _ ih => exact .root dhOut kemSecret 0 ih

/-- The keys of a chain above level 0 are secrets. -/
theorem KeyAt.secret {level index : ℕ} {key : K} (h : KeyAt P dhCombined (level + 1) index key) :
    SessionSecret P dhCombined (P.kdfChain key).messageKey := by
  obtain ⟨chain, hstart, rfl⟩ := h
  have hchain : SessionSecret P dhCombined chain := by
    cases hstart with
    | root h =>
      obtain ⟨rootKey, dhOut, kemSecret, hroot, rfl⟩ := h
      exact .root dhOut kemSecret 1 hroot.secret
  have hskip : SessionSecret P dhCombined (P.skipChain index chain) := by
    induction index with
    | zero => exact hchain
    | succ index ih =>
      rw [P.skipChain_succ]
      exact .chain 0 ih
  exact .chain 1 hskip

/-- The zero key is no message key. -/
theorem notMessageKey_zero (hP : P.CollisionFree) : NotMessageKey P P.zeroKey :=
  fun _ h => hP.ne_zero _ _ h.symm

/-- No key of the agreement is a message key. -/
theorem notMessageKey_x3dh (hP : P.CollisionFree) (block : Fin 3) :
    NotMessageKey P (P.kdf (.x3dh dhCombined) block) := by
  intro chainKey h
  cases (hP.inj _ _ _ _ h).1

/-- No header key is a message key. -/
theorem notMessageKey_root (hP : P.CollisionFree) (rootKey : K) (dhOut : Bytes 56)
    (kemSecret : Option (Bytes 32)) :
    NotMessageKey P (P.kdfRoot rootKey dhOut kemSecret).nextHeaderKey := by
  intro chainKey h
  cases (hP.inj _ _ _ _ h).1

end Positions

end SimpleGo
