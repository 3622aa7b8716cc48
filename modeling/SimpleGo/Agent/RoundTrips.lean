import SimpleGo.Agent.Codings
import SimpleGo.Lib.Buffers

/-!
# The encodings in their buffers

`base64url_encode` and `url_encode` write into a buffer of the caller and end the text with a
zero byte; `url_decode_inplace` reads and writes one string, with a pointer for each. Their loops
leave in memory what the encodings of a link say.
-/

namespace SimpleGo

open Lib

/-! ### Percent encoding -/

/-- The loop of `url_encode`: an escape is written whole, or not at all. -/
def urlEncodeLoop (outputMax : ℤ) : List UInt8 → (j : ℕ) → Mem → ℕ × Mem
  | [], j, output => (j, output)
  | c :: rest, j, output =>
    if c ≠ 0 ∧ j < outputMax - 4 then
      urlEncodeLoop outputMax rest (j + (urlEncodeChar c).length)
        (store output j (urlEncodeChar c))
    else (j, output)

/-- `url_encode`: the result, and the buffer. -/
def urlEncodeInto (input : List UInt8) (outputMax : ℤ) (output : Mem) : ℕ × Mem :=
  let (j, output) := urlEncodeLoop outputMax input 0 output
  (j, store output j [0])

/-- The loop of `url_decode_inplace`, with as many turns as there is fuel. -/
def urlDecodeLoop : (fuel : ℕ) → Mem → (src dst : ℕ) → Option Mem
  | 0, _, _, _ => none
  | fuel + 1, str, src, dst =>
    if str src = 0 then some (store str dst [0])
    else if str src = 0x25 ∧ str (src + 1) ≠ 0 ∧ str (src + 2) ≠ 0 then
      urlDecodeLoop fuel
        (store str dst [hexDigit (str (src + 1)) <<< 4 ||| hexDigit (str (src + 2))])
        (src + 3) (dst + 1)
    else urlDecodeLoop fuel (store str dst [str src]) (src + 1) (dst + 1)

/-- `url_decode_inplace`. -/
def urlDecodeInplace (fuel : ℕ) (str : Mem) : Option Mem := urlDecodeLoop fuel str 0 0

/-- With enough fuel `url_decode_inplace` leaves the string `s`. -/
def DecodesTo (str : Mem) (s : List UInt8) : Prop :=
  ∃ enough decoded, (∀ fuel ≥ enough, urlDecodeInplace fuel str = some decoded) ∧
    HoldsString decoded 0 s

/-- What the loop writes is one piece. -/
theorem urlEncodeLoop_eq (outputMax : ℤ) {s : List UInt8} (hs : 0 ∉ s) (j : ℕ) (output : Mem) :
    urlEncodeLoop outputMax s j output =
      (j + (urlEncode outputMax s j).length, store output j (urlEncode outputMax s j)) := by
  induction s generalizing j output with
  | nil => rw [urlEncodeLoop, urlEncode, store_nil, List.length_nil, Nat.add_zero]
  | cons c rest ih =>
    rw [List.mem_cons, not_or] at hs
    rw [urlEncodeLoop, urlEncode]
    by_cases hroom : (j : ℤ) < outputMax - 4
    · rw [if_pos ⟨Ne.symm hs.1, hroom⟩, if_pos hroom, ih hs.2, store_append, List.length_append,
        Nat.add_assoc]
    · rw [if_neg fun h => hroom h.2, if_neg hroom, store_nil, List.length_nil, Nat.add_zero]

/-- A text that fits is encoded whole. -/
theorem urlEncode_of_fits (outputMax : ℤ) (s : List UInt8) (j : ℕ)
    (hroom : ((j + (s.flatMap urlEncodeChar).length : ℕ) : ℤ) ≤ outputMax - 4) :
    urlEncode outputMax s j = s.flatMap urlEncodeChar := by
  induction s generalizing j with
  | nil => rfl
  | cons c rest ih =>
    have hlen := length_le_flatMap_urlEncodeChar [c]
    rw [List.flatMap_cons, List.flatMap_nil, List.append_nil, List.length_singleton] at hlen
    rw [List.flatMap_cons, List.length_append] at hroom
    rw [urlEncode, if_pos (by omega), ih _ (by omega), List.flatMap_cons]

/-- Any text is encoded up to some character, and leaves room for a zero byte. -/
theorem urlEncode_cut (outputMax : ℤ) (s : List UInt8) (j : ℕ) (hj : (j : ℤ) ≤ outputMax - 2) :
    ∃ front, front <+: s ∧ urlEncode outputMax s j = front.flatMap urlEncodeChar ∧
      ((j + (urlEncode outputMax s j).length : ℕ) : ℤ) ≤ outputMax - 2 := by
  induction s generalizing j with
  | nil => exact ⟨[], List.nil_prefix, rfl, hj⟩
  | cons c rest ih =>
    have hlen := urlEncodeChar_length_le c
    rw [urlEncode]
    by_cases hroom : (j : ℤ) < outputMax - 4
    · obtain ⟨front, hfront, hencode, hend⟩ := ih (j + (urlEncodeChar c).length) (by omega)
      refine ⟨c :: front, List.cons_prefix_cons.mpr ⟨rfl, hfront⟩, ?_, ?_⟩
      · rw [if_pos hroom, hencode, List.flatMap_cons]
      · rw [if_pos hroom, List.length_append]
        omega
    · rw [if_neg hroom]
      exact ⟨[], List.nil_prefix, rfl, by rw [List.length_nil]; omega⟩

set_option maxRecDepth 8192 in
/-- An encoded text has no zero byte. -/
theorem zero_notMem_urlEncodeChar (c : UInt8) : 0 ∉ urlEncodeChar c := by
  have hall : ∀ n < 256, 0 ∉ urlEncodeChar (UInt8.ofNat n) := by decide
  have hc := hall _ c.toNat_lt
  rwa [UInt8.ofNat_toNat] at hc

/-- A character that does not begin an escape is passed on. -/
theorem urlDecode_plain {c : UInt8} {rest : List UInt8} (h : ¬ (c = 0x25 ∧ 2 ≤ rest.length)) :
    urlDecode (c :: rest) = c :: urlDecode rest := by
  match rest with
  | [] => rfl
  | [_] => rfl
  | _ :: _ :: _ => exact urlDecode_cons (fun hc => h ⟨hc, by simp⟩) _

/-- With the write pointer not ahead of the read pointer, the loop reads the text as it was and
writes its decoding. -/
theorem urlDecodeLoop_eq {t : List UInt8} {fuel : ℕ} {str : Mem} {src dst : ℕ}
    (ht : HoldsString str src t) (hle : dst ≤ src) (hfuel : t.length < fuel) :
    urlDecodeLoop fuel str src dst = some (store str dst (urlDecode t ++ [0])) := by
  induction fuel generalizing t str src dst with
  | zero => exact absurd hfuel (Nat.not_lt_zero _)
  | succ fuel ih =>
    obtain ⟨hzero, hstr⟩ := ht
    cases t with
    | nil =>
      rw [List.nil_append, holds_cons] at hstr
      rw [urlDecodeLoop, if_pos hstr.1]
      rfl
    | cons c rest =>
      rw [List.mem_cons, not_or] at hzero
      rw [List.cons_append, holds_cons] at hstr
      obtain ⟨hc, hrest⟩ := hstr
      rw [List.length_cons] at hfuel
      rw [urlDecodeLoop, hc, if_neg (Ne.symm hzero.1)]
      by_cases hescape : c = 0x25 ∧ 2 ≤ rest.length
      · -- an escape: three bytes are read and one is written
        obtain ⟨hi, lo, rest, rfl⟩ : ∃ hi lo rest', rest = hi :: lo :: rest' := by
          match rest, hescape.2 with
          | hi :: lo :: rest, _ => exact ⟨hi, lo, rest, rfl⟩
        rw [List.cons_append, List.cons_append, holds_cons, holds_cons] at hrest
        obtain ⟨hhi, hlo, hrest⟩ := hrest
        simp only [List.mem_cons, not_or] at hzero
        rw [List.length_cons, List.length_cons] at hfuel
        rw [if_pos ⟨hescape.1, hhi ▸ Ne.symm hzero.2.1, hlo ▸ Ne.symm hzero.2.2.1⟩, hhi, hlo,
          ih ⟨hzero.2.2.2, hrest.store_of_le (by rw [List.length_singleton]; omega)⟩ (by omega)
            (by omega),
          urlDecode, if_pos hescape.1]
        exact congrArg some (store_append str dst [_] _)
      · have hplain : ¬ (c = 0x25 ∧ str (src + 1) ≠ 0 ∧ str (src + 2) ≠ 0) := by
          rintro ⟨hpercent, hfirst, hsecond⟩
          cases rest with
          | nil => exact hfirst (holds_cons.mp hrest).1
          | cons c' rest =>
            cases rest with
            | nil => exact hsecond (holds_cons.mp (holds_cons.mp hrest).2).1
            | cons c'' rest => exact hescape ⟨hpercent, by simp⟩
        rw [if_neg hplain,
          ih ⟨hzero.2, hrest.store_of_le (by rw [List.length_singleton]; omega)⟩ (by omega)
            (by omega),
          urlDecode_plain hescape]
        exact congrArg some (store_append str dst [_] _)

/-- What `url_encode` leaves in its buffer. -/
theorem urlEncodeInto_eq (outputMax : ℤ) {s : List UInt8} (hs : 0 ∉ s) (output : Mem) :
    urlEncodeInto s outputMax output = ((urlEncode outputMax s 0).length,
      store output 0 (urlEncode outputMax s 0 ++ [0])) := by
  have hend := store_append output 0 (urlEncode outputMax s 0) [0]
  rw [Nat.zero_add] at hend
  rw [urlEncodeInto, urlEncodeLoop_eq outputMax hs]
  dsimp only
  rw [Nat.zero_add, hend]

/-- The encoding of a text is decoded in place. -/
theorem decodesTo_encoded {front : List UInt8} (hfront : 0 ∉ front) (output : Mem) :
    DecodesTo (store output 0 (front.flatMap urlEncodeChar ++ [0])) front := by
  have hzero : 0 ∉ front.flatMap urlEncodeChar := by
    rw [List.mem_flatMap]
    rintro ⟨c, -, hc⟩
    exact zero_notMem_urlEncodeChar c hc
  have hdecode : urlDecode (front.flatMap urlEncodeChar) = front := by
    have h := urlDecode_urlEncodeChar front []
    rwa [urlDecode, List.append_nil, List.append_nil] at h
  have hloop : ∀ fuel ≥ (front.flatMap urlEncodeChar).length + 1, _ := fun fuel hfuel =>
    urlDecodeLoop_eq (holdsString_store output 0 hzero) (Nat.le_refl 0) hfuel
  rw [hdecode] at hloop
  exact ⟨_, _, hloop, holdsString_store _ 0 hfront⟩

/-- `url_decode_inplace` undoes `url_encode` when the encoding has room; in any buffer of at least
five bytes what `url_encode` writes lies inside, and is decoded to the text up to some
character. -/
theorem url_round_trip (s : List UInt8) (hs : 0 ∉ s) (outputMax : ℤ) (output : Mem) :
    (((s.flatMap urlEncodeChar).length : ℤ) ≤ outputMax - 4 →
      DecodesTo (urlEncodeInto s outputMax output).2 s) ∧
    (5 ≤ outputMax →
      (∀ i : ℕ, outputMax ≤ i → (urlEncodeInto s outputMax output).2 i = output i) ∧
        ((urlEncodeInto s outputMax output).1 : ℤ) < outputMax ∧
        (urlEncodeInto s outputMax output).2 (urlEncodeInto s outputMax output).1 = 0 ∧
        ∃ front, front <+: s ∧ DecodesTo (urlEncodeInto s outputMax output).2 front) := by
  rw [urlEncodeInto_eq outputMax hs]
  dsimp only
  constructor
  · intro hroom
    rw [urlEncode_of_fits outputMax s 0 (by rwa [Nat.zero_add])]
    exact decodesTo_encoded hs output
  · intro hsize
    obtain ⟨front, hfront, hencode, hend⟩ := urlEncode_cut outputMax s 0 (by omega)
    rw [Nat.zero_add] at hend
    refine ⟨fun i hi => store_of_ge output _ ?_, by omega, ?_, front, hfront, ?_⟩
    · rw [List.length_append, List.length_singleton]
      omega
    · have hlt : (urlEncode outputMax s 0).length < (urlEncode outputMax s 0 ++ [0]).length := by
        rw [List.length_append]
        exact Nat.lt_succ_self _
      have hbyte := store_add output 0 _ hlt
      rw [Nat.zero_add] at hbyte
      rw [hbyte, List.getD_append_right _ _ _ _ (Nat.le_refl _), Nat.sub_self]
      rfl
    · rw [hencode]
      exact decodesTo_encoded (fun h => hs (hfront.subset h)) output

/-- A text with a blank and a `%`, in a buffer with room for it and in one without. -/
theorem url_round_trip_sample :
    DecodesTo (urlEncodeInto [0x61, 0x20, 0x25] 11 fun _ => 0).2 [0x61, 0x20, 0x25] ∧
      ∃ front, front <+: [0x61, 0x20, 0x25] ∧
        DecodesTo (urlEncodeInto [0x61, 0x20, 0x25] 5 fun _ => 0).2 front :=
  ⟨(url_round_trip [0x61, 0x20, 0x25] (by decide) 11 fun _ => 0).1 (by decide),
    ((url_round_trip [0x61, 0x20, 0x25] (by decide) 5 fun _ => 0).2 (by decide)).2.2.2⟩

/-! ### Base64 -/

/-- The loop of `base64url_encode`. -/
def base64GroupsInto (outputMax : ℤ) : List UInt8 → (j : ℕ) → Mem → ℕ × Mem
  | [], j, output => (j, output)
  | [a], j, output =>
    if j < outputMax - 4 then (j + 4, store output j (base64Quad a 0 0)) else (j, output)
  | [a, b], j, output =>
    if j < outputMax - 4 then (j + 4, store output j (base64Quad a b 0)) else (j, output)
  | a :: b :: c :: rest, j, output =>
    if j < outputMax - 4 then
      base64GroupsInto outputMax rest (j + 4) (store output j (base64Quad a b c))
    else (j, output)

/-- `base64url_encode`: the result, and the buffer. The end of the text is stepped back by the
characters that stand for no byte; a negative index is in front of the buffer. -/
def base64urlEncodeInto (input : List UInt8) (outputMax : ℤ) (output : Mem) : ℤ × Mem :=
  let (j, output) := base64GroupsInto outputMax input 0 output
  let j : ℤ := j - base64Padding input.length
  (j, if j < 0 then output else store output j.toNat [0])

/-- `base64url_decode` with its check of the arguments. -/
def base64urlDecodeChecked (input : List UInt8) (maxOutput : ℤ) : ℤ × List UInt8 :=
  if maxOutput ≤ 0 then (-1, []) else base64urlDecode input maxOutput.toNat

/-- In a large enough buffer the loop writes all groups. -/
theorem base64GroupsInto_eq (outputMax : ℤ) (input : List UInt8) (j : ℕ) (output : Mem)
    (hroom : (j + 4 * ((input.length + 2) / 3) : ℕ) < outputMax) :
    base64GroupsInto outputMax input j output =
      (j + (base64Triples input).length, store output j (base64Triples input)) := by
  induction input using base64Triples.induct generalizing j output with
  | case1 => rw [base64GroupsInto, base64Triples, store_nil, List.length_nil, Nat.add_zero]
  | case2 a =>
    simp only [List.length_cons, List.length_nil] at hroom
    rw [base64GroupsInto, base64Triples, if_pos (by omega)]
    rfl
  | case3 a b =>
    simp only [List.length_cons, List.length_nil] at hroom
    rw [base64GroupsInto, base64Triples, if_pos (by omega)]
    rfl
  | case4 a b c rest ih =>
    have hquad : (base64Quad a b c).length = 4 := rfl
    simp only [List.length_cons] at hroom
    rw [base64GroupsInto, base64Triples, if_pos (by omega), ih (j + 4) _ (by omega), ← hquad,
      store_append, List.length_append, Nat.add_assoc]

/-- What `base64url_encode` leaves in a large enough buffer: the text, with a zero byte in the
place of the first character that stands for no byte. -/
theorem base64urlEncodeInto_eq (outputMax : ℤ) (input : List UInt8) (output : Mem)
    (hroom : (4 * ((input.length + 2) / 3) : ℕ) < outputMax) :
    ((base64urlEncodeInto input outputMax output).1 =
        (base64urlEncode input outputMax).length) ∧
      HoldsString (base64urlEncodeInto input outputMax output).2 0
        (base64urlEncode input outputMax) := by
  obtain ⟨text, padding, htriples, hpadding, -, hchars, -⟩ := base64Triples_split input
  have hencode : base64urlEncode input outputMax = text := by
    rw [base64urlEncode, base64Groups_eq outputMax input 0 (by rwa [Nat.zero_add]), htriples,
      ← hpadding, List.length_append, Nat.add_sub_cancel, List.take_left]
  have hzero : 0 ∉ text := fun h => absurd (hchars 0 h) (by decide)
  have hlen : ((text.length + padding.length : ℕ) : ℤ) - (padding.length : ℕ) = text.length := by
    omega
  rw [hencode, base64urlEncodeInto, base64GroupsInto_eq outputMax input 0 output
    (by rwa [Nat.zero_add]), htriples]
  dsimp only
  rw [← hpadding, Nat.zero_add, List.length_append, hlen, if_neg (by omega), Int.toNat_natCast]
  refine ⟨rfl, hzero, holds_append.mpr ⟨?_, ?_⟩⟩
  · exact (holds_append.mp (holds_store output 0 (text ++ padding))).1.store_of_ge (by omega)
  · rw [Nat.zero_add]
    exact holds_store ..

/-- `base64url_decode` undoes `base64url_encode` in buffers that are large enough and not
empty. -/
theorem base64url_round_trip (x : List UInt8) (outputMax maxOutput : ℤ) (output : Mem)
    (hroom : (4 * ((x.length + 2) / 3) : ℕ) + 1 ≤ outputMax) (hmax : x.length ≤ maxOutput)
    (hpos : 0 < maxOutput) :
    ∃ text, (base64urlEncodeInto x outputMax output).1 = text.length ∧
      HoldsString (base64urlEncodeInto x outputMax output).2 0 text ∧
        base64urlDecodeChecked text maxOutput = ((x.length : ℤ), x) := by
  obtain ⟨hlen, hheld⟩ := base64urlEncodeInto_eq outputMax x output (by omega)
  refine ⟨base64urlEncode x outputMax, hlen, hheld, ?_⟩
  rw [base64urlDecodeChecked, if_neg (by omega)]
  exact (base64urlDecode_encode (by omega) (by omega)).1

/-- Four bytes. -/
theorem base64url_round_trip_four :
    ∃ text, (base64urlEncodeInto [0, 255, 16, 7] 9 fun _ => 1).1 = text.length ∧
      HoldsString (base64urlEncodeInto [0, 255, 16, 7] 9 fun _ => 1).2 0 text ∧
        base64urlDecodeChecked text 4 = (4, [0, 255, 16, 7]) :=
  base64url_round_trip [0, 255, 16, 7] 9 4 (fun _ => 1) (by decide) (by decide) (by decide)

/-- A buffer of no bytes is large enough for the empty text, but the decoder refuses it. -/
theorem base64url_decode_no_buffer :
    ¬ ∀ (x : List UInt8) (outputMax maxOutput : ℤ) (output : Mem),
      (4 * ((x.length + 2) / 3) : ℕ) + 1 ≤ outputMax → x.length ≤ maxOutput →
        ∃ text, (base64urlEncodeInto x outputMax output).1 = text.length ∧
          HoldsString (base64urlEncodeInto x outputMax output).2 0 text ∧
            base64urlDecodeChecked text maxOutput = ((x.length : ℤ), x) := by
  intro h
  obtain ⟨text, -, -, hdecode⟩ := h [] 1 0 (fun _ => 0) (by decide) (by decide)
  rw [base64urlDecodeChecked, if_pos (by decide)] at hdecode
  exact absurd (congrArg Prod.fst hdecode) (by decide)

end SimpleGo
