import SimpleGo.Agent.Invitation

/-!
# The encodings of a link

`base64url_encode`, `url_encode` and the decimal numbers of `snprintf`, and that the decoders
of the invitation parser undo them: `base64url_decode`, `url_decode_inplace` and `atoi`. The
encoders stop when their output buffer is nearly full; the lemmas say when it is large enough.
-/

namespace SimpleGo

open Lib

/-! ### Base64 -/

/-- `base64url_chars`. -/
def base64urlChars : List UInt8 :=
  "ABCDEFGHIJKLMNOPQRSTUVWXYZabcdefghijklmnopqrstuvwxyz0123456789-_".toList.map
    fun c => UInt8.ofNat c.toNat

/-- `base64url_chars[n]`. -/
def base64Char (n : ℕ) : UInt8 := base64urlChars.getD n 0

/-- The four characters of `triple`. -/
def base64Quad (a b c : UInt8) : List UInt8 :=
  let triple := a.toNat * 65536 + b.toNat * 256 + c.toNat
  [base64Char (triple / 2 ^ 18 % 64), base64Char (triple / 2 ^ 12 % 64),
    base64Char (triple / 2 ^ 6 % 64), base64Char (triple % 64)]

/-- The encoding loop; `j` characters are in the output. Missing bytes are zero. -/
def base64Groups (outputMax : ℤ) : List UInt8 → (j : ℕ) → List UInt8
  | [], _ => []
  | [a], j => if j < outputMax - 4 then base64Quad a 0 0 else []
  | [a, b], j => if j < outputMax - 4 then base64Quad a b 0 else []
  | a :: b :: c :: rest, j =>
    if j < outputMax - 4 then base64Quad a b c ++ base64Groups outputMax rest (j + 4) else []

/-- The same loop without a limit. -/
def base64Triples : List UInt8 → List UInt8
  | [] => []
  | [a] => base64Quad a 0 0
  | [a, b] => base64Quad a b 0
  | a :: b :: c :: rest => base64Quad a b c ++ base64Triples rest

/-- How many characters at the end stand for no byte. -/
def base64Padding (inputLen : ℕ) : ℕ :=
  if inputLen % 3 = 1 then 2 else if inputLen % 3 = 2 then 1 else 0

/-- `base64url_encode`. -/
def base64urlEncode (input : List UInt8) (outputMax : ℤ) : List UInt8 :=
  let output := base64Groups outputMax input 0
  output.take (output.length - base64Padding input.length)

/-- Base64 with padding: the characters that stand for no byte are `=`. -/
def base64Padded (input : List UInt8) : List UInt8 :=
  let output := base64Triples input
  let padding := base64Padding input.length
  output.take (output.length - padding) ++ List.replicate padding 0x3D

set_option maxRecDepth 8192 in
/-- The characters of the alphabet have their values. -/
theorem base64Char_value : ∀ n < 64, base64Value (base64Char n) = some (UInt8.ofNat n) := by
  decide

/-- A character of the alphabet. -/
def IsBase64Char (c : UInt8) : Prop := c ∈ base64urlChars

instance : DecidablePred IsBase64Char := fun c => inferInstanceAs (Decidable (c ∈ base64urlChars))

/-- Every digit of the encoder is one the decoder takes. -/
theorem isBase64Char_base64Char : ∀ n < 64, IsBase64Char (base64Char n) := by
  decide

/-- Six bits are shifted into the accumulator. -/
theorem accum_toNat (accum : UInt32) {v : ℕ} (hv : v < 64) :
    ((accum <<< 6) ||| (UInt8.ofNat v).toUInt32).toNat = (accum.toNat * 64 + v) % 2 ^ 32 := by
  have hval : (UInt8.ofNat v).toUInt32.toNat = v := by
    rw [UInt8.toNat_toUInt32, toNat_ofNat_mod]
    omega
  have hshift : (accum <<< 6).toNat = (accum.toNat % 2 ^ 26) <<< 6 := by
    rw [UInt32.toNat_shiftLeft, Nat.shiftLeft_eq, Nat.shiftLeft_eq]
    change accum.toNat * 64 % 4294967296 = accum.toNat % 67108864 * 64
    omega
  rw [UInt32.toNat_or, hval, hshift, ← Nat.shiftLeft_add_eq_or_of_lt (show v < 2 ^ 6 by omega),
    Nat.shiftLeft_eq]
  omega

/-- The byte that is taken out of the accumulator. -/
theorem accum_byte (accum : UInt32) {k : ℕ} (hk : k < 32) :
    (accum >>> UInt32.ofNat k).toUInt8 = UInt8.ofNat (accum.toNat / 2 ^ k) := by
  apply UInt8.toNat_inj.mp
  have hshift : (UInt32.ofNat k).toNat % 32 = k := by
    rw [UInt32.toNat_ofNat']
    omega
  rw [UInt32.toNat_toUInt8, UInt32.toNat_shiftRight, hshift, Nat.shiftRight_eq_div_pow,
    toNat_ofNat_mod]

/-- With no bits left a character only fills the accumulator. -/
theorem base64Loop_fill {v : ℕ} (hv : v < 64) (rest : List UInt8) (accum : UInt32) :
    ∃ accum' : UInt32, accum'.toNat = (accum.toNat * 64 + v) % 2 ^ 32 ∧
      base64Loop (base64Char v :: rest) accum 0 = base64Loop rest accum' 6 := by
  refine ⟨_, accum_toNat accum hv, ?_⟩
  rw [base64Loop, base64Char_value v hv]
  rfl

/-- With bits left it completes a byte. -/
theorem base64Loop_emit {v k : ℕ} (hv : v < 64) (hk : k < 32) (rest : List UInt8)
    (accum : UInt32) :
    ∃ accum' : UInt32, accum'.toNat = (accum.toNat * 64 + v) % 2 ^ 32 ∧
      base64Loop (base64Char v :: rest) accum (k + 2) =
        UInt8.ofNat (accum'.toNat / 2 ^ k) :: base64Loop rest accum' k := by
  refine ⟨_, accum_toNat accum hv, ?_⟩
  rw [base64Loop, base64Char_value v hv, ← accum_byte _ hk]
  dsimp only
  rw [if_pos (by omega), Nat.add_sub_cancel]

/-- Characters of the table give a byte for every eight of their bits. -/
theorem base64Loop_length {s : List UInt8} (hs : ∀ c ∈ s, (base64Value c).isSome = true)
    (accum : UInt32) {bits : ℕ} (hbits : bits < 8) :
    (base64Loop s accum bits).length = (6 * s.length + bits) / 8 := by
  induction s generalizing accum bits with
  | nil =>
    rw [base64Loop, List.length_nil]
    omega
  | cons c rest ih =>
    obtain ⟨val, hval⟩ := Option.isSome_iff_exists.mp (hs c List.mem_cons_self)
    have hrest : ∀ d ∈ rest, (base64Value d).isSome = true :=
      fun d hd => hs d (List.mem_cons_of_mem _ hd)
    rw [base64Loop, hval]
    dsimp only
    by_cases hemit : 8 ≤ bits + 6
    · rw [if_pos hemit, List.length_cons, ih hrest _ (by omega), List.length_cons]
      omega
    · rw [if_neg hemit, ih hrest _ (by omega), List.length_cons]
      omega

/-- A text of the table that fits the buffer is decoded to three quarters of its length. -/
theorem base64urlDecode_of_chars {input : List UInt8} {max : ℕ}
    (hchars : ∀ c ∈ trimEnd [0x3D, 0x20, 0x0A] input, (base64Value c).isSome = true)
    (hmax : (trimEnd [0x3D, 0x20, 0x0A] input).length * 3 / 4 ≤ max) :
    (base64urlDecode input max).1 =
      ((trimEnd [0x3D, 0x20, 0x0A] input).length * 3 / 4 : ℕ) := by
  have hlen := base64Loop_length hchars 0 (show 0 < 8 by decide)
  rw [base64urlDecode]
  dsimp only
  rw [if_neg (Nat.not_lt.mpr hmax)]
  dsimp only
  rw [List.length_take, hlen]
  omega

/-- A byte is known by its value. -/
theorem ofNat_eq_of_mod {n : ℕ} {x : UInt8} (h : n % 256 = x.toNat) : UInt8.ofNat n = x := by
  apply UInt8.toNat_inj.mp
  rw [toNat_ofNat_mod]
  exact h

/-- Three bytes are read back from their four characters; a prefix of the characters gives the
bytes that it covers. -/
theorem base64Loop_quad (a b c : UInt8) (rest : List UInt8) (accum : UInt32) :
    (∃ accum', base64Loop (base64Quad a b c ++ rest) accum 0 =
      a :: b :: c :: base64Loop rest accum' 0) ∧
    base64Loop ((base64Quad a b c).take 3) accum 0 = [a, b] ∧
    base64Loop ((base64Quad a b c).take 2) accum 0 = [a] := by
  have ha := a.toNat_lt
  have hb := b.toNat_lt
  have hc := c.toNat_lt
  obtain ⟨v₁, hv₁⟩ : ∃ v, v = (a.toNat * 65536 + b.toNat * 256 + c.toNat) / 2 ^ 18 % 64 := ⟨_, rfl⟩
  obtain ⟨v₂, hv₂⟩ : ∃ v, v = (a.toNat * 65536 + b.toNat * 256 + c.toNat) / 2 ^ 12 % 64 := ⟨_, rfl⟩
  obtain ⟨v₃, hv₃⟩ : ∃ v, v = (a.toNat * 65536 + b.toNat * 256 + c.toNat) / 2 ^ 6 % 64 := ⟨_, rfl⟩
  obtain ⟨v₄, hv₄⟩ : ∃ v, v = (a.toNat * 65536 + b.toNat * 256 + c.toNat) % 64 := ⟨_, rfl⟩
  have hquad : base64Quad a b c = [base64Char v₁, base64Char v₂, base64Char v₃, base64Char v₄] := by
    rw [base64Quad, hv₁, hv₂, hv₃, hv₄]
  -- the characters one after the other, whatever follows
  have hstep : ∀ tail, ∃ acc₂ : UInt32, acc₂.toNat = ((accum.toNat * 64 + v₁) * 64 + v₂) % 2 ^ 32 ∧
      base64Loop (base64Char v₁ :: base64Char v₂ :: tail) accum 0 = a :: base64Loop tail acc₂ 4 := by
    intro tail
    obtain ⟨acc₁, hacc₁, hfill⟩ := base64Loop_fill (show v₁ < 64 by omega)
      (base64Char v₂ :: tail) accum
    obtain ⟨acc₂, hacc₂, hemit⟩ := base64Loop_emit (show v₂ < 64 by omega)
      (show 4 < 32 by decide) tail acc₁
    refine ⟨acc₂, by omega, ?_⟩
    rw [hfill, hemit, ofNat_eq_of_mod (show acc₂.toNat / 2 ^ 4 % 256 = a.toNat by omega)]
  have hthird : ∀ (acc₂ : UInt32) tail,
      acc₂.toNat = ((accum.toNat * 64 + v₁) * 64 + v₂) % 2 ^ 32 →
        ∃ acc₃ : UInt32, acc₃.toNat = (acc₂.toNat * 64 + v₃) % 2 ^ 32 ∧
          base64Loop (base64Char v₃ :: tail) acc₂ 4 = b :: base64Loop tail acc₃ 2 := by
    intro acc₂ tail hacc₂
    obtain ⟨acc₃, hacc₃, hemit⟩ := base64Loop_emit (show v₃ < 64 by omega)
      (show 2 < 32 by decide) tail acc₂
    refine ⟨acc₃, hacc₃, ?_⟩
    rw [hemit, ofNat_eq_of_mod (show acc₃.toNat / 2 ^ 2 % 256 = b.toNat by omega)]
  rw [hquad]
  refine ⟨?_, ?_, ?_⟩
  · obtain ⟨acc₂, hacc₂, htwo⟩ := hstep (base64Char v₃ :: base64Char v₄ :: rest)
    obtain ⟨acc₃, hacc₃, hthree⟩ := hthird acc₂ (base64Char v₄ :: rest) hacc₂
    obtain ⟨acc₄, hacc₄, hemit⟩ := base64Loop_emit (show v₄ < 64 by omega)
      (show 0 < 32 by decide) rest acc₃
    refine ⟨acc₄, ?_⟩
    simp only [List.cons_append, List.nil_append]
    rw [htwo, hthree, hemit, ofNat_eq_of_mod (show acc₄.toNat / 2 ^ 0 % 256 = c.toNat by omega)]
  · obtain ⟨acc₂, hacc₂, htwo⟩ := hstep [base64Char v₃]
    obtain ⟨acc₃, -, hthree⟩ := hthird acc₂ [] hacc₂
    change base64Loop [base64Char v₁, base64Char v₂, base64Char v₃] accum 0 = _
    rw [htwo, hthree, base64Loop]
  · obtain ⟨acc₂, -, htwo⟩ := hstep []
    change base64Loop [base64Char v₁, base64Char v₂] accum 0 = _
    rw [htwo, base64Loop]

/-- Four characters of the alphabet. -/
theorem isBase64Char_quad (a b c : UInt8) : ∀ d ∈ base64Quad a b c, IsBase64Char d := by
  intro d hd
  simp only [base64Quad, List.mem_cons, List.not_mem_nil, or_false] at hd
  rcases hd with rfl | rfl | rfl | rfl <;>
    exact isBase64Char_base64Char _ (Nat.mod_lt _ (by decide))

/-- The output of the loop is a text that gives the input, and the characters that stand for no
byte. -/
theorem base64Triples_split (input : List UInt8) :
    ∃ text padding, base64Triples input = text ++ padding ∧
      padding.length = base64Padding input.length ∧ text.length = (input.length * 4 + 2) / 3 ∧
      (∀ c ∈ text, IsBase64Char c) ∧ ∀ accum, base64Loop text accum 0 = input := by
  induction input using base64Triples.induct with
  | case1 => exact ⟨[], [], rfl, rfl, rfl, by simp, fun accum => by rw [base64Loop]⟩
  | case2 a =>
    refine ⟨(base64Quad a 0 0).take 2, (base64Quad a 0 0).drop 2, ?_, rfl, by simp [base64Quad],
      ?_, ?_⟩
    · rw [base64Triples, List.take_append_drop]
    · exact fun c hc => isBase64Char_quad a 0 0 c (List.mem_of_mem_take hc)
    · exact fun accum => (base64Loop_quad a 0 0 [] accum).2.2
  | case3 a b =>
    refine ⟨(base64Quad a b 0).take 3, (base64Quad a b 0).drop 3, ?_, rfl, by simp [base64Quad],
      ?_, ?_⟩
    · rw [base64Triples, List.take_append_drop]
    · exact fun c hc => isBase64Char_quad a b 0 c (List.mem_of_mem_take hc)
    · exact fun accum => (base64Loop_quad a b 0 [] accum).2.1
  | case4 a b c rest ih =>
    obtain ⟨text, padding, htriples, hpadding, hlength, hchars, hloop⟩ := ih
    refine ⟨base64Quad a b c ++ text, padding, ?_, ?_, ?_, ?_, ?_⟩
    · rw [base64Triples, htriples, List.append_assoc]
    · have hmod : (rest.length + 1 + 1 + 1) % 3 = rest.length % 3 := by omega
      simp only [hpadding, base64Padding, List.length_cons, hmod]
    · have hquad : (base64Quad a b c).length = 4 := rfl
      rw [List.length_append, hlength, hquad]
      simp only [List.length_cons]
      omega
    · intro d hd
      rcases List.mem_append.mp hd with hd | hd
      · exact isBase64Char_quad a b c d hd
      · exact hchars d hd
    · intro accum
      obtain ⟨accum', hquad⟩ := (base64Loop_quad a b c text accum).1
      rw [hquad, hloop]

/-- In a large enough buffer the limit does not matter. -/
theorem base64Groups_eq (outputMax : ℤ) (input : List UInt8) (j : ℕ)
    (hroom : (j + 4 * ((input.length + 2) / 3) : ℕ) < outputMax) :
    base64Groups outputMax input j = base64Triples input := by
  induction input using base64Triples.induct generalizing j with
  | case1 => rw [base64Groups, base64Triples]
  | case2 a =>
    simp only [List.length_cons, List.length_nil] at hroom
    rw [base64Groups, base64Triples, if_pos (by omega)]
  | case3 a b =>
    simp only [List.length_cons, List.length_nil] at hroom
    rw [base64Groups, base64Triples, if_pos (by omega)]
  | case4 a b c rest ih =>
    simp only [List.length_cons] at hroom
    rw [base64Groups, base64Triples, if_pos (by omega), ih (j + 4) (by omega)]

/-- Characters that are not to be cut off stay. -/
theorem trimEnd_append {chars text tail : List UInt8} (htail : ∀ c ∈ tail, c ∈ chars)
    (htext : ∀ c ∈ text, c ∉ chars) : trimEnd chars (text ++ tail) = text := by
  have hdrop : ∀ l : List UInt8, (∀ c ∈ l, c ∉ chars) → l.dropWhile (· ∈ chars) = l := by
    intro l hl
    cases l with
    | nil => rfl
    | cons c l => exact List.dropWhile_cons_of_neg (by simpa using hl c List.mem_cons_self)
  rw [trimEnd, List.reverse_append, List.dropWhile_append_of_pos (by simpa using htail),
    hdrop text.reverse (by simpa using htext), List.reverse_reverse]

set_option maxRecDepth 8192 in
/-- No character of the alphabet is cut off. -/
theorem IsBase64Char.not_mem {c : UInt8} (h : IsBase64Char c) :
    c ∉ ([0x3D, 0x20, 0x0A] : List UInt8) := by
  have hall : ∀ c ∈ base64urlChars, c ∉ ([0x3D, 0x20, 0x0A] : List UInt8) := by decide
  exact hall c h

/-- Text of the alphabet, with or without `=` behind it, is decoded. -/
theorem base64urlDecode_of_loop {text input : List UInt8} (n : ℕ) {max : ℕ}
    (hchars : ∀ c ∈ text, IsBase64Char c) (hlength : text.length = (input.length * 4 + 2) / 3)
    (hloop : base64Loop text 0 0 = input) (hmax : input.length ≤ max) :
    base64urlDecode (text ++ List.replicate n 0x3D) max = ((input.length : ℤ), input) := by
  have htrim : trimEnd [0x3D, 0x20, 0x0A] (text ++ List.replicate n 0x3D) = text :=
    trimEnd_append (fun c hc => by rw [List.eq_of_mem_replicate hc]; decide)
      fun c hc => (hchars c hc).not_mem
  rw [base64urlDecode, htrim]
  dsimp only
  rw [if_neg (by omega), hloop, List.take_of_length_le hmax]

/-- `base64url_decode` undoes `base64url_encode`. -/
theorem base64urlDecode_encode {input : List UInt8} {outputMax : ℤ} {max : ℕ}
    (hroom : (4 * ((input.length + 2) / 3) : ℕ) < outputMax) (hmax : input.length ≤ max) :
    base64urlDecode (base64urlEncode input outputMax) max = ((input.length : ℤ), input) ∧
      (base64urlEncode input outputMax).length = (input.length * 4 + 2) / 3 ∧
      ∀ c ∈ base64urlEncode input outputMax, IsBase64Char c := by
  obtain ⟨text, padding, htriples, hpadding, hlength, hchars, hloop⟩ := base64Triples_split input
  have hencode : base64urlEncode input outputMax = text := by
    rw [base64urlEncode, base64Groups_eq outputMax input 0 (by rwa [Nat.zero_add]), htriples,
      ← hpadding, List.length_append, Nat.add_sub_cancel, List.take_left]
  rw [hencode]
  refine ⟨?_, hlength, hchars⟩
  have hdecode := base64urlDecode_of_loop 0 hchars hlength (hloop 0) hmax
  rwa [List.replicate_zero, List.append_nil] at hdecode

/-- `base64url_decode` undoes the encoding with padding. -/
theorem base64urlDecode_padded {input : List UInt8} {max : ℕ} (hmax : input.length ≤ max) :
    base64urlDecode (base64Padded input) max = ((input.length : ℤ), input) ∧
      ∃ text, base64Padded input = text ++ List.replicate (base64Padding input.length) 0x3D ∧
        text.length = (input.length * 4 + 2) / 3 ∧ ∀ c ∈ text, IsBase64Char c := by
  obtain ⟨text, padding, htriples, hpadding, hlength, hchars, hloop⟩ := base64Triples_split input
  have hencode : base64Padded input =
      text ++ List.replicate (base64Padding input.length) 0x3D := by
    rw [base64Padded, htriples, ← hpadding, List.length_append, Nat.add_sub_cancel,
      List.take_left]
  refine ⟨?_, text, hencode, hlength, hchars⟩
  rw [hencode]
  exact base64urlDecode_of_loop _ hchars hlength (hloop 0) hmax

/-! ### Percent encoding -/

/-- The characters that `url_encode` keeps. -/
def isUnreserved (c : UInt8) : Bool :=
  (0x41 ≤ c && c ≤ 0x5A) || (0x61 ≤ c && c ≤ 0x7A) || (0x30 ≤ c && c ≤ 0x39) || c == 0x2D ||
    c == 0x5F || c == 0x2E || c == 0x7E

/-- `hex[n]`. -/
def hexChar (n : ℕ) : UInt8 :=
  ("0123456789ABCDEF".toList.map fun c => UInt8.ofNat c.toNat).getD n 0

/-- One character, as `url_encode` writes it. -/
def urlEncodeChar (c : UInt8) : List UInt8 :=
  if isUnreserved c then [c] else [0x25, hexChar (c.toNat / 16), hexChar (c.toNat % 16)]

/-- The loop of `url_encode`; `j` characters are in the output. -/
def urlEncode (outputMax : ℤ) : List UInt8 → (j : ℕ) → List UInt8
  | [], _ => []
  | c :: rest, j =>
    if j < outputMax - 4 then
      urlEncodeChar c ++ urlEncode outputMax rest (j + (urlEncodeChar c).length)
    else []

/-- A character takes at most three. -/
theorem urlEncodeChar_length_le (c : UInt8) : (urlEncodeChar c).length ≤ 3 := by
  rw [urlEncodeChar]
  split_ifs <;> simp

/-- In a large enough buffer every character is encoded. -/
theorem urlEncode_eq (outputMax : ℤ) (s : List UInt8) (j : ℕ)
    (hroom : (j + 3 * s.length : ℕ) < outputMax - 1) :
    urlEncode outputMax s j = s.flatMap urlEncodeChar := by
  induction s generalizing j with
  | nil => rfl
  | cons c rest ih =>
    have hlen := urlEncodeChar_length_le c
    rw [List.length_cons] at hroom
    rw [urlEncode, if_pos (by omega), ih _ (by omega), List.flatMap_cons]

/-- A text grows to three times its length at most. -/
theorem flatMap_urlEncodeChar_length_le (s : List UInt8) :
    (s.flatMap urlEncodeChar).length ≤ 3 * s.length := by
  induction s with
  | nil => exact Nat.le_refl 0
  | cons c rest ih =>
    have hlen := urlEncodeChar_length_le c
    rw [List.flatMap_cons, List.length_append, List.length_cons]
    omega

/-- And no less than one. -/
theorem length_le_flatMap_urlEncodeChar (s : List UInt8) :
    s.length ≤ (s.flatMap urlEncodeChar).length := by
  induction s with
  | nil => exact Nat.le_refl 0
  | cons c rest ih =>
    have hlen : 1 ≤ (urlEncodeChar c).length := by
      rw [urlEncodeChar]
      split_ifs <;> simp
    rw [List.flatMap_cons, List.length_append, List.length_cons]
    omega

/-- A character that is no `%` is passed on. -/
theorem urlDecode_cons {c : UInt8} (hc : c ≠ 0x25) (rest : List UInt8) :
    urlDecode (c :: rest) = c :: urlDecode rest := by
  match rest with
  | [] => rfl
  | [_] => rfl
  | _ :: _ :: _ => rw [urlDecode, if_neg hc]

/-- Text without a `%` is passed on. -/
theorem urlDecode_append {s : List UInt8} (hs : 0x25 ∉ s) (rest : List UInt8) :
    urlDecode (s ++ rest) = s ++ urlDecode rest := by
  induction s with
  | nil => rfl
  | cons c s ih =>
    rw [List.mem_cons, not_or] at hs
    rw [List.cons_append, urlDecode_cons (Ne.symm hs.1), ih hs.2, List.cons_append]

set_option maxRecDepth 8192 in
/-- The digits of a byte give the byte. -/
theorem hexDigit_hexChar (c : UInt8) :
    hexDigit (hexChar (c.toNat / 16)) <<< 4 ||| hexDigit (hexChar (c.toNat % 16)) = c := by
  have hall : ∀ n < 256, hexDigit (hexChar (n / 16)) <<< 4 ||| hexDigit (hexChar (n % 16)) =
      UInt8.ofNat n := by decide
  rw [hall _ c.toNat_lt, UInt8.ofNat_toNat]

/-- `url_decode_inplace` undoes `url_encode`. -/
theorem urlDecode_urlEncodeChar (s rest : List UInt8) :
    urlDecode (s.flatMap urlEncodeChar ++ rest) = s ++ urlDecode rest := by
  induction s with
  | nil => rfl
  | cons c s ih =>
    rw [List.flatMap_cons, List.append_assoc, urlEncodeChar]
    by_cases hc : isUnreserved c = true
    · have hne : c ≠ 0x25 := by
        rintro rfl
        exact absurd hc (by decide)
      rw [if_pos hc, List.singleton_append, urlDecode_cons hne, ih, List.cons_append]
    · rw [if_neg hc]
      simp only [List.cons_append, List.nil_append]
      rw [urlDecode, if_pos rfl, hexDigit_hexChar, ih]

/-- A pass over text without a zero byte. -/
theorem decodePass_eq {uri : List UInt8} (hzero : 0 ∉ urlDecode uri) (hpercent : 0x25 ∈ uri) :
    decodePass uri = urlDecode uri := by
  rw [decodePass, if_pos hpercent, List.takeWhile_eq_self_iff]
  intro c hc
  exact decide_eq_true fun hc0 => hzero (hc0 ▸ hc)

/-- A pass over text without a `%`. -/
theorem decodePass_of_notMem {uri : List UInt8} (h : 0x25 ∉ uri) : decodePass uri = uri :=
  if_neg h

/-! ### Decimal numbers -/

/-- `%d`. -/
def decimal (n : ℤ) : List UInt8 := (toString n).toList.map fun c => UInt8.ofNat c.toNat

/-- The digits of a natural number. -/
def decimalDigits (n : ℕ) : List UInt8 := (Nat.toDigits 10 n).map fun c => UInt8.ofNat c.toNat

/-- A number is its digits, behind a `-` when it is negative. -/
theorem decimal_eq (n : ℤ) :
    decimal n = if 0 ≤ n then decimalDigits n.toNat else 0x2D :: decimalDigits (-n).toNat := by
  rw [decimal, Int.toString_eq_repr, Int.repr_eq_if]
  split_ifs
  · rw [Nat.toList_repr, decimalDigits]
  · rw [String.toList_append, Nat.toList_repr, decimalDigits]
    rfl

/-- A digit as a byte. -/
theorem isDigit_byte {c : Char} (h : c.isDigit = true) :
    0x30 ≤ UInt8.ofNat c.toNat ∧ UInt8.ofNat c.toNat ≤ 0x39 ∧
      (UInt8.ofNat c.toNat - 0x30).toNat = c.toNat - '0'.toNat := by
  have hall : ∀ n < 58, 48 ≤ n → 0x30 ≤ UInt8.ofNat n ∧ UInt8.ofNat n ≤ 0x39 ∧
      (UInt8.ofNat n - 0x30).toNat = n - 48 := by decide
  obtain ⟨hlow, hhigh⟩ := Char.isDigit_iff_toNat.mp h
  exact hall c.toNat (Nat.lt_succ_of_le hhigh) hlow

/-- Digits are digits. -/
theorem mem_decimalDigits {n : ℕ} {d : UInt8} (h : d ∈ decimalDigits n) :
    0x30 ≤ d ∧ d ≤ 0x39 := by
  obtain ⟨c, hc, rfl⟩ := List.mem_map.mp h
  have hdigit := isDigit_byte (Nat.isDigit_of_mem_toDigits (by decide) (by decide) hc)
  exact ⟨hdigit.1, hdigit.2.1⟩

/-- The value of the digits is the number. -/
theorem decimalDigits_value (n : ℕ) :
    ((decimalDigits n).takeWhile fun c => 0x30 ≤ c ∧ c ≤ 0x39).foldl
      (fun v c => v * 10 + (c - 0x30).toNat) 0 = n := by
  have hall : (decimalDigits n).takeWhile (fun c => 0x30 ≤ c ∧ c ≤ 0x39) = decimalDigits n :=
    List.takeWhile_eq_self_iff.mpr fun c hc => decide_eq_true (mem_decimalDigits hc)
  rw [hall]
  conv_rhs => rw [← Nat.ofDigitChars_ten_toDigits (n := n), Nat.ofDigitChars_eq_foldl]
  rw [decimalDigits, List.foldl_map]
  apply List.foldl_ext
  intro v c hc
  rw [(isDigit_byte (Nat.isDigit_of_mem_toDigits (by decide) (by decide) hc)).2.2, Nat.mul_comm]

/-- Text that starts with a digit has no blank and no sign. -/
theorem atoi_of_digit {d : UInt8} {rest : List UInt8} (hd : 0x30 ≤ d) :
    atoi (d :: rest) = min ((((d :: rest).takeWhile fun c => 0x30 ≤ c ∧ c ≤ 0x39).foldl
      (fun v c => v * 10 + (c - 0x30).toNat) 0 : ℕ) : ℤ) (2 ^ 31 - 1) := by
  have hne : ∀ b < (0x30 : UInt8), d ≠ b := fun b hb h =>
    absurd (UInt8.lt_of_le_of_lt (h ▸ hd) hb) (UInt8.lt_irrefl _)
  have hdrop : (d :: rest).dropWhile (· ∈ [0x20, 0x09, 0x0A, 0x0B, 0x0C, 0x0D]) = d :: rest := by
    apply List.dropWhile_cons_of_neg
    simp [hne 0x20 (by decide), hne 0x09 (by decide), hne 0x0A (by decide), hne 0x0B (by decide),
      hne 0x0C (by decide), hne 0x0D (by decide)]
  rw [atoi, hdrop]
  split
  · rename_i heq
    exact absurd (List.cons.inj heq).1 (hne 0x2D (by decide))
  · rename_i heq
    exact absurd (List.cons.inj heq).1 (hne 0x2B (by decide))
  · rfl

/-- `atoi` undoes `%d` on every `int`. -/
theorem atoi_decimal (port : Int32) : atoi (decimal port.toInt) = port.toInt := by
  have hlow := port.le_toInt
  have hhigh := port.toInt_lt
  rw [decimal_eq]
  by_cases hneg : 0 ≤ port.toInt
  · rw [if_pos hneg]
    have hvalue := decimalDigits_value port.toInt.toNat
    cases hdigits : decimalDigits port.toInt.toNat with
    | nil => exact absurd (List.map_eq_nil_iff.mp hdigits) Nat.toDigits_ne_nil
    | cons d rest =>
      have hmem : d ∈ decimalDigits port.toInt.toNat := by
        rw [hdigits]
        exact List.mem_cons_self
      rw [hdigits] at hvalue
      rw [atoi_of_digit (mem_decimalDigits hmem).1, hvalue]
      omega
  · rw [if_neg hneg]
    have hvalue := decimalDigits_value (-port.toInt).toNat
    have hatoi : atoi (0x2D :: decimalDigits (-port.toInt).toNat) =
        max (-((((decimalDigits (-port.toInt).toNat).takeWhile fun c =>
          0x30 ≤ c ∧ c ≤ 0x39).foldl (fun v c => v * 10 + (c - 0x30).toNat) 0 : ℕ) : ℤ))
          (-(2 ^ 31)) := rfl
    rw [hatoi, hvalue]
    omega

/-- A number in decimals has digits and `-` only. -/
theorem mem_decimal {n : ℤ} {c : UInt8} (h : c ∈ decimal n) : c = 0x2D ∨ 0x30 ≤ c ∧ c ≤ 0x39 := by
  rw [decimal_eq] at h
  split_ifs at h
  · exact Or.inr (mem_decimalDigits h)
  · rcases List.mem_cons.mp h with h | h
    · exact Or.inl h
    · exact Or.inr (mem_decimalDigits h)

end SimpleGo
