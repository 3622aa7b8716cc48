import Mathlib.Data.List.Basic
import Mathlib.Tactic.Cases

/-!
# JSON texts

A recogniser for JSON texts (RFC 8259, encoded in UTF-8 as RFC 3629 has it): a machine that reads
one byte at a time and remembers the brackets that are open. The characters between the quotes of
a string are also given by a grammar, and the machine reads exactly what the grammar derives.
-/

namespace SimpleGo.Lib.Json

/-! ### The characters of a string -/

/-- Inside a character of more than one byte: how many of the bytes 80 to BF are to come, or the
first byte where it bounds the second. -/
inductive Utf8Mode where
  | oneMore | twoMore | threeMore | afterE0 | afterED | afterF0 | afterF4
  deriving DecidableEq

namespace Utf8Mode

/-- The least next byte. -/
def least : Utf8Mode → UInt8
  | afterE0 => 0xA0
  | afterF0 => 0x90
  | _ => 0x80

/-- The greatest next byte. -/
def greatest : Utf8Mode → UInt8
  | afterED => 0x9F
  | afterF4 => 0x8F
  | _ => 0xBF

/-- What is to come after the next byte. -/
def next : Utf8Mode → Option Utf8Mode
  | oneMore => none
  | twoMore | afterE0 | afterED => some oneMore
  | threeMore | afterF0 | afterF4 => some twoMore

/-- After the first byte of a character of more than one. -/
def start (b : UInt8) : Option Utf8Mode :=
  if 0xC2 ≤ b ∧ b ≤ 0xDF then some oneMore
  else if b = 0xE0 then some afterE0
  else if b = 0xED then some afterED
  else if 0xE1 ≤ b ∧ b ≤ 0xEF then some twoMore
  else if b = 0xF0 then some afterF0
  else if 0xF1 ≤ b ∧ b ≤ 0xF3 then some threeMore
  else if b = 0xF4 then some afterF4
  else none

end Utf8Mode

/-- What may follow a backslash, beside `u`. -/
def escapes : List UInt8 := [0x22, 0x5C, 0x2F, 0x62, 0x66, 0x6E, 0x72, 0x74]

/-- `0` to `9`. -/
def isDigit (b : UInt8) : Bool := 0x30 ≤ b && b ≤ 0x39

/-- A hexadecimal digit. -/
def isHex (b : UInt8) : Bool :=
  isDigit b || (0x41 ≤ b && b ≤ 0x46) || (0x61 ≤ b && b ≤ 0x66)

/-- Inside a string: between characters, behind a backslash, with this many hexadecimal digits to
come after the next one, or inside a character of more than one byte. -/
inductive StringMode where
  | plain
  | escape
  | hex (more : Fin 4)
  | utf8 (mode : Utf8Mode)
  deriving DecidableEq

/-- One byte of a string, other than the quote that ends it. -/
def stringStep : StringMode → UInt8 → Option StringMode
  | .plain, b =>
    if b < 0x20 ∨ b = 0x22 then none
    else if b = 0x5C then some .escape
    else if b < 0x80 then some .plain
    else (Utf8Mode.start b).map .utf8
  | .escape, b =>
    if b = 0x75 then some (.hex 3) else if b ∈ escapes then some .plain else none
  | .hex more, b =>
    if isHex b then some (if more = 0 then .plain else .hex (more - 1)) else none
  | .utf8 mode, b =>
    if mode.least ≤ b ∧ b ≤ mode.greatest then some (mode.next.elim .plain .utf8) else none

/-- The bytes of a string one after the other. -/
def stringRun : StringMode → List UInt8 → Option StringMode
  | mode, [] => some mode
  | mode, b :: l => (stringStep mode b).bind fun next => stringRun next l

/-- `UTF8-tail`. -/
def Tail (b : UInt8) : Prop := 0x80 ≤ b ∧ b ≤ 0xBF

/-- A character of a string: unescaped, escaped, or of more than one byte. -/
inductive StringChar : List UInt8 → Prop where
  | unescaped {b : UInt8} : 0x20 ≤ b → b < 0x80 → b ≠ 0x22 → b ≠ 0x5C → StringChar [b]
  | escaped {b : UInt8} : b ∈ escapes → StringChar [0x5C, b]
  | unicode {a b c d : UInt8} : isHex a = true → isHex b = true → isHex c = true →
      isHex d = true → StringChar [0x5C, 0x75, a, b, c, d]
  | two {a b : UInt8} : 0xC2 ≤ a → a ≤ 0xDF → Tail b → StringChar [a, b]
  | three {a b c : UInt8} : 0xE0 ≤ a → a ≤ 0xEF → (a = 0xE0 → 0xA0 ≤ b) →
      (a = 0xED → b ≤ 0x9F) → Tail b → Tail c → StringChar [a, b, c]
  | four {a b c d : UInt8} : 0xF0 ≤ a → a ≤ 0xF4 → (a = 0xF0 → 0x90 ≤ b) →
      (a = 0xF4 → b ≤ 0x8F) → Tail b → Tail c → Tail d → StringChar [a, b, c, d]

/-- The characters of a string. -/
inductive StringChars : List UInt8 → Prop where
  | nil : StringChars []
  | cons {c l : List UInt8} : StringChar c → StringChars l → StringChars (c ++ l)

/-! ### What a string derives is what is read -/

/-- A string is read in two parts. -/
theorem stringRun_append (mode : StringMode) (a b : List UInt8) :
    stringRun mode (a ++ b) = (stringRun mode a).bind fun next => stringRun next b := by
  induction a generalizing mode with
  | nil => rfl
  | cons c a ih =>
    rw [List.cons_append, stringRun, stringRun, Option.bind_assoc]
    exact congrArg _ (funext fun next => ih next)

/-- A byte from 80 on begins a character of more than one byte. -/
theorem stringStep_of_ge {b : UInt8} (h : 0x80 ≤ b) :
    stringStep .plain b = (Utf8Mode.start b).map .utf8 := by
  have hlow : ¬(b < 0x20 ∨ b = 0x22) := by
    rintro (hlt | rfl)
    · exact absurd (UInt8.lt_of_le_of_lt h hlt) (by decide)
    · exact absurd h (by decide)
  have hback : b ≠ 0x5C := by
    rintro rfl
    exact absurd h (by decide)
  rw [stringStep, if_neg hlow, if_neg hback, if_neg (UInt8.not_lt.2 h)]

/-- The bounds of the second byte are met. -/
theorem stringStep_utf8 {mode : Utf8Mode} {b : UInt8} (hlo : mode.least ≤ b)
    (hhi : b ≤ mode.greatest) :
    stringStep (.utf8 mode) b = some (mode.next.elim .plain .utf8) := if_pos ⟨hlo, hhi⟩

/-- Whatever its bounds are, a byte that continues a character is a tail. -/
theorem Utf8Mode.tail_of_bounds (mode : Utf8Mode) {b : UInt8} (hlo : mode.least ≤ b)
    (hhi : b ≤ mode.greatest) : Tail b := by
  have hleast : 0x80 ≤ mode.least := by cases mode <;> decide
  have hgreatest : mode.greatest ≤ 0xBF := by cases mode <;> decide
  exact ⟨UInt8.le_trans hleast hlo, UInt8.le_trans hhi hgreatest⟩

/-- What three bytes begin with. -/
theorem start_three {a : UInt8} (hlo : 0xE0 ≤ a) (hhi : a ≤ 0xEF) :
    Utf8Mode.start a =
      some (if a = 0xE0 then .afterE0 else if a = 0xED then .afterED else .twoMore) := by
  have htwo : ¬(0xC2 ≤ a ∧ a ≤ 0xDF) := fun h =>
    absurd (UInt8.le_trans hlo h.2) (by decide)
  rw [Utf8Mode.start, if_neg htwo]
  by_cases he0 : a = 0xE0
  · rw [if_pos he0, if_pos he0]
  · rw [if_neg he0, if_neg he0]
    by_cases hed : a = 0xED
    · rw [if_pos hed, if_pos hed]
    · have hmid : 0xE1 ≤ a ∧ a ≤ 0xEF := by
        simp only [UInt8.le_iff_toNat_le, ← UInt8.toNat_inj, UInt8.reduceToNat] at hlo hhi he0 ⊢
        omega
      rw [if_neg hed, if_neg hed, if_pos hmid]

/-- What four bytes begin with. -/
theorem start_four {a : UInt8} (hlo : 0xF0 ≤ a) (hhi : a ≤ 0xF4) :
    Utf8Mode.start a =
      some (if a = 0xF0 then .afterF0 else if a = 0xF4 then .afterF4 else .threeMore) := by
  have hnot : ∀ {c d : UInt8}, d < 0xF0 → ¬(c ≤ a ∧ a ≤ d) := fun hd h =>
    absurd (UInt8.lt_of_le_of_lt (UInt8.le_trans hlo h.2) hd) (by decide)
  have hne : ∀ {d : UInt8}, d < 0xF0 → a ≠ d := by
    rintro d hd rfl
    exact absurd (UInt8.lt_of_le_of_lt hlo hd) (by decide)
  rw [Utf8Mode.start, if_neg (hnot (by decide)), if_neg (hne (by decide)),
    if_neg (hne (by decide)), if_neg (hnot (by decide))]
  by_cases hf0 : a = 0xF0
  · rw [if_pos hf0, if_pos hf0]
  · rw [if_neg hf0, if_neg hf0]
    by_cases hf4 : a = 0xF4
    · subst hf4
      rfl
    · have hmid : 0xF1 ≤ a ∧ a ≤ 0xF3 := by
        simp only [UInt8.le_iff_toNat_le, ← UInt8.toNat_inj, UInt8.reduceToNat] at hlo hhi hf0 hf4 ⊢
        omega
      rw [if_pos hmid, if_neg hf4]

/-- A character is read from its first byte to its last. -/
theorem StringChar.stringRun {c : List UInt8} (h : StringChar c) :
    stringRun .plain c = some .plain := by
  cases h with
  | unescaped hlo hhi hquote hback =>
    simp [Json.stringRun, stringStep, UInt8.not_lt.2 hlo, hquote, hback, hhi]
  | @escaped b hb =>
    have hu : b ≠ 0x75 := by
      rintro rfl
      exact absurd hb (by decide)
    simp [Json.stringRun, stringStep, hu, hb]
  | unicode ha hb hc hd =>
    simp [Json.stringRun, stringStep, ha, hb, hc, hd]
  | @two a b hlo hhi hb =>
    have hstart : Utf8Mode.start a = some .oneMore := if_pos ⟨hlo, hhi⟩
    have hlast : stringStep (.utf8 .oneMore) b = some .plain := stringStep_utf8 hb.1 hb.2
    simp only [Json.stringRun, stringStep_of_ge (UInt8.le_trans (by decide) hlo), hstart,
      Option.map_some, Option.bind_some, hlast]
  | @three a b c hlo hhi he0 hed hb hc =>
    have hlast : stringStep (.utf8 .oneMore) c = some .plain := stringStep_utf8 hc.1 hc.2
    simp only [Json.stringRun, stringStep_of_ge (UInt8.le_trans (by decide) hlo),
      start_three hlo hhi, Option.map_some, Option.bind_some]
    split
    · rename_i ha
      rw [stringStep_utf8 (he0 ha) hb.2, Option.bind_some]
      exact congrArg (·.bind some) hlast
    · split
      · rename_i ha
        rw [stringStep_utf8 hb.1 (hed ha), Option.bind_some]
        exact congrArg (·.bind some) hlast
      · rw [stringStep_utf8 hb.1 hb.2, Option.bind_some]
        exact congrArg (·.bind some) hlast
  | @four a b c d hlo hhi hf0 hf4 hb hc hd =>
    have hthird : stringStep (.utf8 .twoMore) c = some (.utf8 .oneMore) :=
      stringStep_utf8 hc.1 hc.2
    have hlast : stringStep (.utf8 .oneMore) d = some .plain := stringStep_utf8 hd.1 hd.2
    have hrest : Json.stringRun (.utf8 .twoMore) [c, d] = some .plain := by
      rw [Json.stringRun, hthird, Option.bind_some, Json.stringRun]
      exact congrArg (·.bind some) hlast
    rw [Json.stringRun, stringStep_of_ge (UInt8.le_trans (by decide) hlo), start_four hlo hhi,
      Option.map_some, Option.bind_some, Json.stringRun]
    split
    · rename_i ha
      rw [stringStep_utf8 (hf0 ha) hb.2, Option.bind_some]
      exact hrest
    · split
      · rename_i ha
        rw [stringStep_utf8 hb.1 (hf4 ha), Option.bind_some]
        exact hrest
      · rw [stringStep_utf8 hb.1 hb.2, Option.bind_some]
        exact hrest

/-- The three ways in which a character of more than one byte begins. -/
theorem start_cases {a : UInt8} {mode : Utf8Mode} (h : Utf8Mode.start a = some mode) :
    (0xC2 ≤ a ∧ a ≤ 0xDF ∧ mode = .oneMore) ∨
    (0xE0 ≤ a ∧ a ≤ 0xEF ∧
      mode = if a = 0xE0 then .afterE0 else if a = 0xED then .afterED else .twoMore) ∨
    (0xF0 ≤ a ∧ a ≤ 0xF4 ∧
      mode = if a = 0xF0 then .afterF0 else if a = 0xF4 then .afterF4 else .threeMore) := by
  by_cases htwo : 0xC2 ≤ a ∧ a ≤ 0xDF
  · rw [Utf8Mode.start, if_pos htwo] at h
    exact Or.inl ⟨htwo.1, htwo.2, (Option.some.inj h).symm⟩
  · by_cases hthree : 0xE0 ≤ a ∧ a ≤ 0xEF
    · rw [start_three hthree.1 hthree.2] at h
      exact Or.inr (Or.inl ⟨hthree.1, hthree.2, (Option.some.inj h).symm⟩)
    · by_cases hfour : 0xF0 ≤ a ∧ a ≤ 0xF4
      · rw [start_four hfour.1 hfour.2] at h
        exact Or.inr (Or.inr ⟨hfour.1, hfour.2, (Option.some.inj h).symm⟩)
      · have hnone : Utf8Mode.start a = none := by
          simp only [UInt8.le_iff_toNat_le, UInt8.reduceToNat] at htwo hthree hfour
          simp only [Utf8Mode.start, UInt8.le_iff_toNat_le, ← UInt8.toNat_inj, UInt8.reduceToNat]
          repeat rw [if_neg (by omega)]
        rw [hnone] at h
        cases h

/-- A run that ends between characters has a byte to read before. -/
theorem exists_cons_of_stringRun {mode : StringMode} {l : List UInt8}
    (h : stringRun mode l = some .plain) (hmode : mode ≠ .plain) :
    ∃ b r next, l = b :: r ∧ stringStep mode b = some next ∧ stringRun next r = some .plain := by
  cases l with
  | nil => exact absurd (Option.some.inj h) hmode
  | cons b r =>
    obtain ⟨next, hstep, hrun⟩ := Option.bind_eq_some_iff.1 h
    exact ⟨b, r, next, rfl, hstep, hrun⟩

/-- The next byte inside a character. -/
theorem exists_cons_of_utf8 {mode : Utf8Mode} {l : List UInt8}
    (h : stringRun (.utf8 mode) l = some .plain) :
    ∃ b r, l = b :: r ∧ mode.least ≤ b ∧ b ≤ mode.greatest ∧
      stringRun (mode.next.elim .plain .utf8) r = some .plain := by
  obtain ⟨b, r, next, rfl, hstep, hrun⟩ := exists_cons_of_stringRun h nofun
  rw [stringStep] at hstep
  split at hstep
  · rename_i hbounds
    rw [← Option.some.inj hstep] at hrun
    exact ⟨b, r, rfl, hbounds.1, hbounds.2, hrun⟩
  · cases hstep

/-- The next hexadecimal digit. -/
theorem exists_cons_of_hex {more : Fin 4} {l : List UInt8}
    (h : stringRun (.hex more) l = some .plain) :
    ∃ b r, l = b :: r ∧ isHex b = true ∧
      stringRun (if more = 0 then .plain else .hex (more - 1)) r = some .plain := by
  obtain ⟨b, r, next, rfl, hstep, hrun⟩ := exists_cons_of_stringRun h nofun
  rw [stringStep] at hstep
  split at hstep
  · rename_i hhex
    rw [← Option.some.inj hstep] at hrun
    exact ⟨b, r, rfl, hhex, hrun⟩
  · cases hstep

/-- What is read in full begins with a character, and the rest is read in full. -/
theorem exists_stringChar {b : UInt8} {l : List UInt8}
    (h : stringRun .plain (b :: l) = some .plain) :
    ∃ c r, b :: l = c ++ r ∧ c ≠ [] ∧ StringChar c ∧ stringRun .plain r = some .plain := by
  obtain ⟨next, hstep, hrun⟩ := Option.bind_eq_some_iff.1 h
  rw [stringStep] at hstep
  split at hstep
  · cases hstep
  · rename_i hlow
    push Not at hlow
    split at hstep
    · rename_i hback
      subst hback
      cases hstep
      obtain ⟨e, r, next, rfl, hstep, hrun⟩ := exists_cons_of_stringRun hrun nofun
      rw [stringStep] at hstep
      split at hstep
      · rename_i hu
        subst hu
        cases hstep
        obtain ⟨w, _, rfl, hw, hrun⟩ := exists_cons_of_hex hrun
        obtain ⟨x, _, rfl, hx, hrun⟩ := exists_cons_of_hex hrun
        obtain ⟨y, _, rfl, hy, hrun⟩ := exists_cons_of_hex hrun
        obtain ⟨z, r, rfl, hz, hrun⟩ := exists_cons_of_hex hrun
        exact ⟨[0x5C, 0x75, w, x, y, z], r, rfl, nofun, .unicode hw hx hy hz, hrun⟩
      · split at hstep
        · rename_i hescape
          cases hstep
          exact ⟨[0x5C, e], r, rfl, nofun, .escaped hescape, hrun⟩
        · cases hstep
    · rename_i hback
      split at hstep
      · rename_i hascii
        cases hstep
        exact ⟨[b], l, rfl, nofun, .unescaped (UInt8.not_lt.1 hlow.1) hascii hlow.2 hback, hrun⟩
      · obtain ⟨mode, hstart, rfl⟩ := Option.map_eq_some_iff.1 hstep
        obtain ⟨x, r, rfl, hlo, hhi, hrun⟩ := exists_cons_of_utf8 hrun
        have hx : Tail x := mode.tail_of_bounds hlo hhi
        rcases start_cases hstart with ⟨hb, hb', rfl⟩ | ⟨hb, hb', hmode⟩ | ⟨hb, hb', hmode⟩
        · exact ⟨[b, x], r, rfl, nofun, .two hb hb' hx, hrun⟩
        · have hnext : mode.next = some .oneMore := by
            rw [hmode]
            split
            · rfl
            · split <;> rfl
          rw [hnext] at hrun
          obtain ⟨y, r, rfl, hylo, hyhi, hrun⟩ := exists_cons_of_utf8 hrun
          refine ⟨[b, x, y], r, rfl, nofun, .three hb hb' ?_ ?_ hx ⟨hylo, hyhi⟩, hrun⟩
          · intro he0
            rwa [hmode, if_pos he0] at hlo
          · intro hed
            rwa [hmode, if_neg (by rw [hed]; decide), if_pos hed] at hhi
        · have hnext : mode.next = some .twoMore := by
            rw [hmode]
            split
            · rfl
            · split <;> rfl
          rw [hnext] at hrun
          obtain ⟨y, _, rfl, hylo, hyhi, hrun⟩ := exists_cons_of_utf8 hrun
          obtain ⟨z, r, rfl, hzlo, hzhi, hrun⟩ := exists_cons_of_utf8 hrun
          refine ⟨[b, x, y, z], r, rfl, nofun,
            .four hb hb' ?_ ?_ hx ⟨hylo, hyhi⟩ ⟨hzlo, hzhi⟩, hrun⟩
          · intro hf0
            rwa [hmode, if_pos hf0] at hlo
          · intro hf4
            rwa [hmode, if_neg (by rw [hf4]; decide), if_pos hf4] at hhi

/-- The machine reads the bytes between two quotes exactly when they are characters. -/
theorem stringRun_iff (l : List UInt8) : stringRun .plain l = some .plain ↔ StringChars l := by
  constructor
  · intro h
    induction hlen : l.length using Nat.strongRecOn generalizing l with
    | ind n ih =>
      cases l with
      | nil => exact .nil
      | cons b l =>
        obtain ⟨c, r, heq, hne, hchar, hrun⟩ := exists_stringChar h
        have hlt : r.length < n := by
          have hsum := congrArg List.length heq
          rw [List.length_append] at hsum
          have hpos := List.length_pos_iff.2 hne
          omega
        rw [heq]
        exact .cons hchar (ih r.length hlt r hrun rfl)
  · intro h
    induction h with
    | nil => rfl
    | cons hchar _ ih => rw [stringRun_append, hchar.stringRun, Option.bind_some, ih]

/-! ### Numbers -/

/-- Inside a number: what was read last. -/
inductive NumberMode where
  | minus | zero | digits | point | fraction | exponent | exponentSign | exponentDigits
  deriving DecidableEq

namespace NumberMode

/-- The number can end here. -/
def final : NumberMode → Bool
  | zero | digits | fraction | exponentDigits => true
  | _ => false

/-- A fraction or an exponent begins. -/
def fractionOrExponent (b : UInt8) : Option NumberMode :=
  if b = 0x2E then some point else if b = 0x65 ∨ b = 0x45 then some exponent else none

/-- One byte of a number. -/
def step : NumberMode → UInt8 → Option NumberMode
  | minus, b => if b = 0x30 then some zero else if isDigit b then some digits else none
  | zero, b => fractionOrExponent b
  | digits, b => if isDigit b then some digits else fractionOrExponent b
  | point, b => if isDigit b then some fraction else none
  | fraction, b =>
    if isDigit b then some fraction else if b = 0x65 ∨ b = 0x45 then some exponent else none
  | exponent, b =>
    if b = 0x2B ∨ b = 0x2D then some exponentSign
    else if isDigit b then some exponentDigits else none
  | exponentSign, b | exponentDigits, b => if isDigit b then some exponentDigits else none

end NumberMode

/-! ### Texts -/

/-- An open bracket. -/
inductive Bracket where
  | array
  | object
  deriving DecidableEq

/-- What may come next: a value; the first element or the first name, or the closing bracket; a
name; the colon behind a name; what follows a value; or the rest of a token. -/
inductive Mode where
  | value
  | firstElement
  | firstName
  | name
  | colon
  | after
  | string (isName : Bool) (mode : StringMode)
  | number (mode : NumberMode)
  | literal (rest : List UInt8)
  deriving DecidableEq

/-- What may come next, inside which brackets. -/
structure Reader where
  mode : Mode
  opened : List Bracket
  deriving DecidableEq

/-- Space, tab, line feed, carriage return. -/
def isSpace (b : UInt8) : Bool := b == 0x20 || b == 0x09 || b == 0x0A || b == 0x0D

/-- The first byte of a value. -/
def valueStep (opened : List Bracket) (b : UInt8) : Option Reader :=
  if b = 0x7B then some ⟨.firstName, .object :: opened⟩
  else if b = 0x5B then some ⟨.firstElement, .array :: opened⟩
  else if b = 0x22 then some ⟨.string false .plain, opened⟩
  else if b = 0x2D then some ⟨.number .minus, opened⟩
  else if b = 0x30 then some ⟨.number .zero, opened⟩
  else if isDigit b then some ⟨.number .digits, opened⟩
  else if b = 0x74 then some ⟨.literal [0x72, 0x75, 0x65], opened⟩
  else if b = 0x66 then some ⟨.literal [0x61, 0x6C, 0x73, 0x65], opened⟩
  else if b = 0x6E then some ⟨.literal [0x75, 0x6C, 0x6C], opened⟩
  else none

/-- A byte behind a value: a comma or a closing bracket. -/
def afterStep (opened : List Bracket) (b : UInt8) : Option Reader :=
  match opened with
  | [] => none
  | .array :: outer =>
    if b = 0x2C then some ⟨.value, opened⟩
    else if b = 0x5D then some ⟨.after, outer⟩ else none
  | .object :: outer =>
    if b = 0x2C then some ⟨.name, opened⟩
    else if b = 0x7D then some ⟨.after, outer⟩ else none

/-- One byte of a text. -/
def step (r : Reader) (b : UInt8) : Option Reader :=
  match r.mode with
  | .string isName mode =>
    if mode = .plain ∧ b = 0x22 then some ⟨if isName then .colon else .after, r.opened⟩
    else (stringStep mode b).map fun next => ⟨.string isName next, r.opened⟩
  | .number mode =>
    match mode.step b with
    | some next => some ⟨.number next, r.opened⟩
    | none =>
      if mode.final then
        if isSpace b then some ⟨.after, r.opened⟩ else afterStep r.opened b
      else none
  | .literal rest =>
    match rest with
    | [] => none
    | c :: more =>
      if b = c then some ⟨if more = [] then .after else .literal more, r.opened⟩ else none
  | mode =>
    if isSpace b then some r
    else
      match mode with
      | .value => valueStep r.opened b
      | .firstElement =>
        if b = 0x5D then some ⟨.after, r.opened.tail⟩ else valueStep r.opened b
      | .firstName =>
        if b = 0x22 then some ⟨.string true .plain, r.opened⟩
        else if b = 0x7D then some ⟨.after, r.opened.tail⟩ else none
      | .name => if b = 0x22 then some ⟨.string true .plain, r.opened⟩ else none
      | .colon => if b = 0x3A then some ⟨.value, r.opened⟩ else none
      | _ => afterStep r.opened b

/-- The bytes of a text one after the other. -/
def run : Reader → List UInt8 → Option Reader
  | r, [] => some r
  | r, b :: l => (step r b).bind fun next => run next l

/-- A value is complete and no bracket is open. -/
def Reader.complete (r : Reader) : Bool :=
  r.opened == [] &&
    match r.mode with
    | .after => true
    | .number mode => mode.final
    | _ => false

/-- The bytes are a JSON text. -/
def WellFormed (l : List UInt8) : Prop := (run ⟨.value, []⟩ l).any Reader.complete = true

instance (l : List UInt8) : Decidable (WellFormed l) :=
  inferInstanceAs (Decidable (_ = true))

example : WellFormed " [1, -0.5e+3, \x7b\"a\": []\x7d, \"ü\"]".toUTF8.data.toList := by decide

example : ¬WellFormed "[01]".toUTF8.data.toList := by decide

/-! ### Reading in parts -/

/-- A text is read in two parts. -/
theorem run_append (r : Reader) (a b : List UInt8) :
    run r (a ++ b) = (run r a).bind fun next => run next b := by
  induction a generalizing r with
  | nil => rfl
  | cons c a ih =>
    rw [List.cons_append, run, run, Option.bind_assoc]
    exact congrArg _ (funext fun next => ih next)

/-- Inside a string, a byte other than a quote is a byte of the string. -/
theorem step_string (isName : Bool) (mode : StringMode) (opened : List Bracket) {b : UInt8}
    (h : b ≠ 0x22) :
    step ⟨.string isName mode, opened⟩ b =
      (stringStep mode b).map fun next => ⟨.string isName next, opened⟩ :=
  if_neg fun hb => h hb.2

/-- Inside a string, bytes without a quote are read as bytes of the string. -/
theorem run_string (isName : Bool) (mode : StringMode) (opened : List Bracket) {l : List UInt8}
    (h : 0x22 ∉ l) :
    run ⟨.string isName mode, opened⟩ l =
      (stringRun mode l).map fun next => ⟨.string isName next, opened⟩ := by
  induction l generalizing mode with
  | nil => rfl
  | cons b l ih =>
    rw [List.mem_cons, not_or] at h
    rw [run, step_string isName mode opened (Ne.symm h.1), stringRun]
    cases stringStep mode b with
    | none => rfl
    | some next => exact ih next h.2

end SimpleGo.Lib.Json
