import SimpleGo.Lib.Orbits
import SimpleGo.Ratchet.State

/-!
# Levels of the root chain

Every root KDF call of a session moves one level up from the X3DH root key. A sending or
receiving chain starts at the level of the root key it was derived from, and so does a header
key. Without collisions a key determines its level, and a message key determines its chain
and its number on that chain. The DH outputs and KEM secrets that went in do not matter, so
this also holds of keys derived from an attacker's DH key.
-/

namespace SimpleGo

open Lib

variable {K : Type}

/-- A root key `level` root KDF calls above the X3DH root key. -/
inductive RootAt (P : Primitives K) (dhCombined : List UInt8) : ℕ → K → Prop
  | x3dh : RootAt P dhCombined 0 (P.kdf (.x3dh dhCombined) 2)
  | root {level : ℕ} {rootKey : K} (dhOut : Bytes 56) (kemSecret : Option (Bytes 32)) :
      RootAt P dhCombined level rootKey →
      RootAt P dhCombined (level + 1) (P.kdfRoot rootKey dhOut kemSecret).newRootKey

/-- A chain start derived from a root key of that level. -/
def ChainAt (P : Primitives K) (dhCombined : List UInt8) (level : ℕ) (chainKey : K) : Prop :=
  ∃ rootKey dhOut kemSecret, RootAt P dhCombined level rootKey ∧
    chainKey = (P.kdfRoot rootKey dhOut kemSecret).chainKey

/-- A header key: of the X3DH at level 0, of a root key of level `n` at level `n + 1`. -/
inductive HeaderAt (P : Primitives K) (dhCombined : List UInt8) : ℕ → K → Prop
  | x3dh (block : Fin 3) : HeaderAt P dhCombined 0 (P.kdf (.x3dh dhCombined) block)
  | root {level : ℕ} {rootKey : K} (dhOut : Bytes 56) (kemSecret : Option (Bytes 32)) :
      RootAt P dhCombined level rootKey →
      HeaderAt P dhCombined (level + 1) (P.kdfRoot rootKey dhOut kemSecret).nextHeaderKey

section Levels

variable {P : Primitives K} {dhCombined : List UInt8}

/-- A root key has one level. -/
theorem RootAt.level_unique (hP : P.CollisionFree) {m n : ℕ} {key : K}
    (hm : RootAt P dhCombined m key) (hn : RootAt P dhCombined n key) : m = n := by
  induction hm generalizing n with
  | x3dh =>
    generalize hkey : P.kdf (.x3dh dhCombined) 2 = key at hn
    cases hn with
    | x3dh => rfl
    | root dhOut kemSecret _ => cases (hP.inj _ _ _ _ hkey).1
  | @root level rootKey dhOut kemSecret _ ih =>
    generalize hkey : (P.kdfRoot rootKey dhOut kemSecret).newRootKey = key at hn
    cases hn with
    | x3dh => cases (hP.inj _ _ _ _ hkey).1
    | root dhOut' kemSecret' hn =>
      obtain ⟨hroot, -, -⟩ := KdfCall.root.inj (hP.inj _ _ _ _ hkey).1
      rw [ih (hroot ▸ hn)]

/-- A header key has one level. -/
theorem HeaderAt.level_unique (hP : P.CollisionFree) {m n : ℕ} {key : K}
    (hm : HeaderAt P dhCombined m key) (hn : HeaderAt P dhCombined n key) : m = n := by
  cases hm with
  | x3dh block =>
    generalize hkey : P.kdf (.x3dh dhCombined) block = key at hn
    cases hn with
    | x3dh => rfl
    | root dhOut kemSecret _ => cases (hP.inj _ _ _ _ hkey).1
  | @root level rootKey dhOut kemSecret hm =>
    generalize hkey : (P.kdfRoot rootKey dhOut kemSecret).nextHeaderKey = key at hn
    cases hn with
    | x3dh => cases (hP.inj _ _ _ _ hkey).1
    | root dhOut' kemSecret' hn =>
      obtain ⟨hroot, -, -⟩ := KdfCall.root.inj (hP.inj _ _ _ _ hkey).1
      rw [hm.level_unique hP (hroot ▸ hn)]

/-- No header key is the zero key. -/
theorem HeaderAt.ne_zero (hP : P.CollisionFree) {level : ℕ} {key : K}
    (h : HeaderAt P dhCombined level key) : key ≠ P.zeroKey := by
  cases h with
  | x3dh block => exact hP.ne_zero _ _
  | root dhOut kemSecret _ => exact hP.ne_zero _ _

/-- A chain start has one level. -/
theorem ChainAt.level_unique (hP : P.CollisionFree) {m n : ℕ} {chainKey : K}
    (hm : ChainAt P dhCombined m chainKey) (hn : ChainAt P dhCombined n chainKey) : m = n := by
  obtain ⟨rootKey, dhOut, kemSecret, hroot, rfl⟩ := hm
  obtain ⟨rootKey', dhOut', kemSecret', hroot', hkey⟩ := hn
  obtain ⟨heq, -, -⟩ := KdfCall.root.inj (hP.inj _ _ _ _ hkey).1
  exact hroot.level_unique hP (heq ▸ hroot')

/-- A chain start is not the successor of a chain key. -/
theorem ChainAt.ne_next (hP : P.CollisionFree) {level : ℕ} {chainKey : K}
    (h : ChainAt P dhCombined level chainKey) (x : K) : P.nextChainKey x ≠ chainKey := by
  obtain ⟨rootKey, dhOut, kemSecret, -, rfl⟩ := h
  intro hx
  cases (hP.inj _ _ _ _ hx).1

/-- The zero key is not the successor of a chain key. -/
theorem zeroKey_ne_next (hP : P.CollisionFree) (x : K) : P.nextChainKey x ≠ P.zeroKey :=
  hP.ne_zero _ _

/-- A message key determines its chain and its number on it. -/
theorem messageKey_skipChain_inj (hP : P.CollisionFree) {c c' : K}
    (hc : ∀ x, P.nextChainKey x ≠ c) (hc' : ∀ x, P.nextChainKey x ≠ c') {m n : ℕ}
    (h : (P.kdfChain (P.skipChain m c)).messageKey = (P.kdfChain (P.skipChain n c')).messageKey) :
    m = n ∧ c = c' :=
  iterate_eq_iterate hP.nextChainKey_injective hc hc' (hP.messageKey_injective h)

end Levels

/-! ## The header keys a party receives under -/

/-- The next header key of a party is of a later level than its current one, which is zero
until the first ADVANCE. -/
structure HeaderOrder (P : Primitives K) (dhCombined : List UInt8) (st : RatchetState K)
    (rootLevel headerLevel : ℕ) : Prop where
  root : RootAt P dhCombined rootLevel st.rootKey
  next : HeaderAt P dhCombined headerLevel st.nextHeaderKeyRecv
  below : headerLevel ≤ rootLevel
  current : st.headerKeyRecv = P.zeroKey ∨
    ∃ level, level < headerLevel ∧ HeaderAt P dhCombined level st.headerKeyRecv

/-- The two header keys a party tries are different keys. -/
theorem HeaderOrder.next_ne_current {P : Primitives K} {dhCombined : List UInt8}
    (hP : P.CollisionFree) {st : RatchetState K} {rootLevel headerLevel : ℕ}
    (h : HeaderOrder P dhCombined st rootLevel headerLevel) :
    st.nextHeaderKeyRecv ≠ st.headerKeyRecv := by
  intro heq
  rcases h.current with hzero | ⟨level, hlt, hcur⟩
  · exact h.next.ne_zero hP (heq.trans hzero)
  · have hlevel := hcur.level_unique hP (heq ▸ h.next)
    omega

end SimpleGo
