import SimpleGo.Agent.Codings

/-!
# The invitation link of a contact

`get_invite_link_for_slot` puts the sender id, the DH key and the server into an SMP address,
and the address, encoded, into a link. The parser of a received invitation decodes it again:
its first pass gives the address, the second the padding of the DH key, and the others find
nothing to decode.
-/

namespace SimpleGo

open Lib

/-! ### Making the link -/

/-- `X25519_SPKI_HEADER`. -/
def x25519SpkiHeader : List UInt8 :=
  [0x30, 0x2A, 0x30, 0x05, 0x06, 0x03, 0x2B, 0x65, 0x6E, 0x03, 0x21, 0x00]

/-- The DH key as it stands in the address, before the padding is escaped. -/
def dhBase64 (key : Bytes 32) : List UInt8 := base64Padded (x25519SpkiHeader ++ key.toList)

/-- The loop that writes `=` as `%3D`; `j` characters are in the output. -/
def escapePadding : List UInt8 → (j : ℕ) → List UInt8
  | [], _ => []
  | c :: rest, j =>
    if j < 95 then
      if c = 0x3D then 0x25 :: 0x33 :: 0x44 :: escapePadding rest (j + 3)
      else c :: escapePadding rest (j + 1)
    else []

/-- `simplex:/contact#/?v=2-7&smp=`. -/
def contactPrefix : List UInt8 :=
  simplexScheme ++ [0x2F, 0x63, 0x6F, 0x6E, 0x74, 0x61, 0x63, 0x74, 0x23, 0x2F, 0x3F, 0x76, 0x3D,
    0x32, 0x2D, 0x37, 0x26, 0x73, 0x6D, 0x70, 0x3D]

/-- `/?v=1-4&dh=`, which stands behind a `#`. -/
def dhQuery : List UInt8 := [0x2F, 0x3F, 0x76, 0x3D, 0x31, 0x2D, 0x34, 0x26, 0x64, 0x68, 0x3D]

/-- `q=c`, which stands behind a `&`. -/
def contactQuery : List UInt8 := [0x71, 0x3D, 0x63]

/-- The address behind the scheme: `%s@%s:%d/%s#/?v=1-4&dh=%s&q=c`. -/
def addressText (hash host port snd dh : List UInt8) : List UInt8 :=
  hash ++ 0x40 :: (host ++ 0x3A :: (port ++ 0x2F :: (snd ++ 0x23 :: (dhQuery ++
    (dh ++ 0x26 :: contactQuery)))))

/-- `smp_uri`: the address in a buffer of 512 bytes. -/
def smpUri (c : Contact) (caHash : Bytes 32) (host : List UInt8) (port : ℤ) : List UInt8 :=
  (smpScheme ++ addressText (base64urlEncode caHash.toList 64) host (decimal port)
    (base64urlEncode (c.senderId.toList.take c.senderIdLen.toNat) 64)
    (escapePadding (dhBase64 c.rcvDhPublic) 0)).take 511

/-- `get_invite_link_for_slot`: the link, none when the slot has no contact. -/
def getInviteLinkForSlot (contacts : ℕ → Contact) (slot : ℤ) (caHash : Bytes 32)
    (host : List UInt8) (port : ℤ) (outLen : ℕ) : Option (List UInt8) :=
  if slot < 0 ∨ 128 ≤ slot ∨ (contacts slot.toNat).isActive = false then none
  else
    some ((contactPrefix ++ urlEncode 1024 (smpUri (contacts slot.toNat) caHash host port) 0).take
      (outLen - 1))

/-! ### The characters of an address -/

/-- A letter, a digit, a dot or a hyphen. -/
def IsHostChar (c : UInt8) : Prop :=
  (0x41 ≤ c ∧ c ≤ 0x5A) ∨ (0x61 ≤ c ∧ c ≤ 0x7A) ∨ (0x30 ≤ c ∧ c ≤ 0x39) ∨ c = 0x2E ∨ c = 0x2D

instance : DecidablePred IsHostChar := fun c =>
  inferInstanceAs (Decidable ((0x41 ≤ c ∧ c ≤ 0x5A) ∨ (0x61 ≤ c ∧ c ≤ 0x7A) ∨
    (0x30 ≤ c ∧ c ≤ 0x39) ∨ c = 0x2E ∨ c = 0x2D))

/-- A decimal number could stand in a host. -/
theorem isHostChar_of_mem_decimal {n : ℤ} {c : UInt8} (h : c ∈ decimal n) : IsHostChar c := by
  rcases mem_decimal h with h | h
  · exact Or.inr (Or.inr (Or.inr (Or.inr h)))
  · exact Or.inr (Or.inr (Or.inl h))

/-- A character of another kind does not occur. -/
theorem notMem_of_forall {P : UInt8 → Prop} {l : List UInt8} (h : ∀ c ∈ l, P c) {d : UInt8}
    (hd : ¬ P d) : d ∉ l :=
  fun hmem => hd (h d hmem)

/-- What `url_encode` writes can be printed, and is not zero. -/
theorem urlEncodeChar_printable (c : UInt8) : ∀ d ∈ urlEncodeChar c, 32 ≤ d ∧ d < 127 := by
  have hhex : ∀ n < 16, 32 ≤ hexChar n ∧ hexChar n < 127 := by decide
  intro d hd
  rw [urlEncodeChar] at hd
  split_ifs at hd with hc
  · cases List.mem_singleton.mp hd
    simp only [isUnreserved, Bool.or_eq_true, Bool.and_eq_true, decide_eq_true_eq,
      beq_iff_eq] at hc
    grind
  · have hlt := c.toNat_lt
    simp only [List.mem_cons, List.not_mem_nil, or_false] at hd
    rcases hd with h | h | h
    · subst h
      decide
    · exact h ▸ hhex _ (by omega)
    · exact h ▸ hhex _ (by omega)

/-- The padding at the end is escaped. -/
theorem escapePadding_append {text : List UInt8} (htext : 0x3D ∉ text) (j : ℕ)
    (hj : j + text.length < 95) :
    escapePadding (text ++ [0x3D]) j = text ++ [0x25, 0x33, 0x44] := by
  induction text generalizing j with
  | nil =>
    rw [List.length_nil] at hj
    rw [List.nil_append, escapePadding, if_pos (by omega), if_pos rfl, escapePadding,
      List.nil_append]
  | cons c text ih =>
    rw [List.mem_cons, not_or] at htext
    rw [List.length_cons] at hj
    rw [List.cons_append, escapePadding, if_pos (by omega), if_neg (Ne.symm htext.1),
      ih htext.2 (j + 1) (by omega), List.cons_append]

/-! ### Finding the parts -/

/-- What stands before a character. -/
theorem beforeChars_append {stops s : List UInt8} {c : UInt8} (hs : ∀ d ∈ s, d ∉ stops)
    (hc : c ∈ stops) (rest : List UInt8) : beforeChars stops (s ++ c :: rest) = s := by
  rw [beforeChars, List.takeWhile_append_of_pos (by simpa using hs),
    List.takeWhile_cons_of_neg (by simpa using hc), List.append_nil]

/-- What stands behind it. -/
theorem behindChar_append {s : List UInt8} {c : UInt8} (hs : c ∉ s) (rest : List UInt8) :
    behindChar c (s ++ c :: rest) = some rest := by
  have hpos : ∀ d ∈ s, decide (d ≠ c) = true := fun d hd =>
    decide_eq_true fun h => hs (h ▸ hd)
  rw [behindChar, if_pos (by simp), List.dropWhile_append_of_pos hpos,
    List.dropWhile_cons_of_neg (by simp), List.drop_one, List.tail_cons]

/-- A pattern does not begin in text that lacks one of its characters and ends before a
character the pattern does not have. -/
theorem findBehind_skip {pattern text : List UInt8} {x c : UInt8} (hx : x ∈ pattern)
    (htext : x ∉ text) (hc : c ∉ pattern) (rest : List UInt8) :
    findBehind pattern (text ++ c :: rest) = findBehind pattern (c :: rest) := by
  induction text with
  | nil => rfl
  | cons d text ih =>
    have hno : ¬ pattern.isPrefixOf (d :: (text ++ c :: rest)) = true := by
      intro hstart
      rw [List.isPrefixOf_iff_prefix] at hstart
      -- the pattern ends in the text, or goes on over its end
      rcases List.prefix_or_prefix_of_prefix hstart
        (show d :: text ++ [c] <+: d :: (text ++ c :: rest) from ⟨rest, by simp⟩) with h | h
      · obtain ⟨end', hend⟩ := h
        rcases List.eq_nil_or_concat end' with rfl | ⟨init, last, rfl⟩
        · rw [List.append_nil] at hend
          exact hc (hend ▸ by simp)
        · rw [List.concat_eq_append, ← List.append_assoc] at hend
          have hinit := (List.append_inj' hend rfl).1
          exact htext (hinit ▸ List.mem_append_left _ hx)
      · exact hc (h.subset (by simp))
    rw [List.mem_cons, not_or] at htext
    rw [List.cons_append, findBehind, if_neg hno, ih htext.2]

/-! ### Decoding the address -/

/-- The parts of an address, none of which has a character that ends one. -/
structure AddressParts (hash host port snd dh : List UInt8) : Prop where
  hash : ∀ c ∈ hash, IsBase64Char c
  host : ∀ c ∈ host, IsHostChar c
  port : ∀ c ∈ port, IsHostChar c
  snd : ∀ c ∈ snd, IsBase64Char c
  dh : ∀ c ∈ dh, IsBase64Char c

/-- The link with an address, up to the text of the DH key. -/
def addressHead (hash host port snd dh : List UInt8) : List UInt8 :=
  contactPrefix ++ (smpScheme ++ (hash ++ 0x40 :: (host ++ 0x3A :: (port ++ 0x2F :: (snd ++
    0x23 :: (dhQuery ++ dh))))))

/-- The link with an address is its head, the padding, and the rest of the query. -/
theorem addressHead_append (hash host port snd dh padding : List UInt8) :
    contactPrefix ++ (smpScheme ++ addressText hash host port snd (dh ++ padding)) =
      addressHead hash host port snd dh ++ (padding ++ 0x26 :: contactQuery) := by
  simp only [addressText, addressHead, List.append_assoc, List.cons_append]

/-- A character that no part and no delimiter has. -/
theorem AddressParts.notMem_head {hash host port snd dh : List UInt8}
    (h : AddressParts hash host port snd dh) {d : UInt8} (hb : ¬ IsBase64Char d)
    (hh : ¬ IsHostChar d)
    (hd : d ∉ contactPrefix ++ smpScheme ++ dhQuery ++ [0x40, 0x3A, 0x2F, 0x23]) :
    d ∉ addressHead hash host port snd dh := by
  simp only [List.mem_append, List.mem_cons, List.not_mem_nil, or_false, not_or] at hd
  obtain ⟨⟨⟨hstart, hscheme⟩, hquery⟩, hat, hcolon, hslash, hhash⟩ := hd
  simp only [addressHead, List.mem_append, List.mem_cons, not_or]
  exact ⟨hstart, hscheme, notMem_of_forall h.hash hb, hat, notMem_of_forall h.host hh, hcolon,
    notMem_of_forall h.port hh, hslash, notMem_of_forall h.snd hb, hhash, hquery,
    notMem_of_forall h.dh hb⟩

/-- The first pass gives the address, the second the padding; then there is nothing to decode. -/
theorem decodePasses_link {hash host port snd dh : List UInt8}
    (h : AddressParts hash host port snd dh) :
    decodePass (decodePass (decodePass (decodePass (contactPrefix ++
      (smpScheme ++ addressText hash host port snd (dh ++ [0x25, 0x33, 0x44])).flatMap
        urlEncodeChar)))) =
      contactPrefix ++ (smpScheme ++ addressText hash host port snd (dh ++ [0x3D])) := by
  have hpercent : 0x25 ∉ addressHead hash host port snd dh :=
    h.notMem_head (by decide) (by decide) (by decide)
  have hzero : 0 ∉ addressHead hash host port snd dh :=
    h.notMem_head (by decide) (by decide) (by decide)
  -- what the first pass gives
  have hfirst : urlDecode (contactPrefix ++
      (smpScheme ++ addressText hash host port snd (dh ++ [0x25, 0x33, 0x44])).flatMap
        urlEncodeChar) =
      addressHead hash host port snd dh ++ ([0x25, 0x33, 0x44] ++ 0x26 :: contactQuery) := by
    have hdecode := urlDecode_urlEncodeChar
      (smpScheme ++ addressText hash host port snd (dh ++ [0x25, 0x33, 0x44])) []
    rw [List.append_nil, urlDecode, List.append_nil] at hdecode
    rw [urlDecode_append (by decide), hdecode, addressHead_append]
  -- and the second
  have hsecond : urlDecode (addressHead hash host port snd dh ++
      ([0x25, 0x33, 0x44] ++ 0x26 :: contactQuery)) =
      addressHead hash host port snd dh ++ ([0x3D] ++ 0x26 :: contactQuery) := by
    rw [urlDecode_append hpercent]
    congr 1
  have hmem : 0x25 ∈ contactPrefix ++
      (smpScheme ++ addressText hash host port snd (dh ++ [0x25, 0x33, 0x44])).flatMap
        urlEncodeChar := by
    refine List.mem_append_right _ (List.mem_flatMap.mpr ⟨0x3A, ?_, by decide⟩)
    exact List.mem_append_left _ (by decide)
  have hpass₁ := decodePass_eq (by
    rw [hfirst, List.mem_append, not_or]
    exact ⟨hzero, by decide⟩) hmem
  have hpass₂ : decodePass (addressHead hash host port snd dh ++
      ([0x25, 0x33, 0x44] ++ 0x26 :: contactQuery)) =
      addressHead hash host port snd dh ++ ([0x3D] ++ 0x26 :: contactQuery) := by
    rw [← hsecond]
    refine decodePass_eq ?_ (List.mem_append_right _ (by decide))
    rw [hsecond, List.mem_append, not_or]
    exact ⟨hzero, by decide⟩
  have hrest : decodePass (addressHead hash host port snd dh ++
      ([0x3D] ++ 0x26 :: contactQuery)) =
      addressHead hash host port snd dh ++ ([0x3D] ++ 0x26 :: contactQuery) := by
    refine decodePass_of_notMem ?_
    rw [List.mem_append, not_or]
    exact ⟨hpercent, by decide⟩
  rw [hpass₁, hfirst, hpass₂, hrest, hrest, addressHead_append]

/-! ### Parsing the address -/

/-- The address is found behind its scheme. -/
theorem smpAddress_link (hash host port snd dh : List UInt8) :
    smpAddress (contactPrefix ++ (smpScheme ++ addressText hash host port snd dh)) =
      some (addressText hash host port snd dh) := by
  rfl

namespace AddressParts

variable {hash host port snd dh : List UInt8}

/-- The fingerprint is the first part. -/
theorem fingerprintText_eq (h : AddressParts hash host port snd dh) (hpos : 0 < hash.length)
    (hlen : hash.length < 48) (text : List UInt8) :
    fingerprintText (contactPrefix ++ (smpScheme ++ addressText hash host port snd text)) =
      some hash := by
  have hbefore : beforeChars [0x40] (addressText hash host port snd text) = hash := by
    refine beforeChars_append (fun d hd => ?_) List.mem_cons_self _
    rw [List.mem_singleton]
    rintro rfl
    exact absurd (h.hash _ hd) (by decide)
  rw [fingerprintText, smpAddress_link, Option.bind_some]
  dsimp only
  rw [hbefore, if_pos ⟨by simp [addressText], hpos, hlen⟩]

/-- The server stands behind it. -/
theorem serverText_eq (h : AddressParts hash host port snd dh) (text : List UInt8) :
    serverText (contactPrefix ++ (smpScheme ++ addressText hash host port snd text)) =
      some (host ++ 0x3A :: (port ++ 0x2F :: (snd ++ 0x23 :: (dhQuery ++
        (text ++ 0x26 :: contactQuery))))) := by
  rw [serverText, smpAddress_link, Option.bind_some, addressText,
    behindChar_append (notMem_of_forall h.hash (by decide)), Option.filter_some_pos]
  simp

/-- The host comes with the port. -/
theorem hostText_eq (h : AddressParts hash host port snd dh)
    (hlen : (host ++ 0x3A :: port).length < 63) (text : List UInt8) :
    hostText (contactPrefix ++ (smpScheme ++ addressText hash host port snd text)) =
      some (host ++ 0x3A :: port) := by
  have hbefore : beforeChars [0x2F] (host ++ 0x3A :: (port ++ 0x2F :: (snd ++ 0x23 :: (dhQuery ++
      (text ++ 0x26 :: contactQuery))))) = host ++ 0x3A :: port := by
    rw [← List.cons_append, ← List.append_assoc]
    refine beforeChars_append (fun d hd => ?_) List.mem_cons_self _
    rw [List.mem_singleton]
    rintro rfl
    rw [List.mem_append, List.mem_cons] at hd
    rcases hd with hd | hd | hd
    · exact absurd (h.host _ hd) (by decide)
    · exact absurd hd (by decide)
    · exact absurd (h.port _ hd) (by decide)
  rw [hostText, h.serverText_eq, Option.map_some, hbefore, Option.filter_some_pos]
  refine decide_eq_true ⟨?_, hlen⟩
  rw [List.length_append, List.length_cons]
  omega

/-- The queue id ends at the `#`. -/
theorem queueIdText_eq (h : AddressParts hash host port snd dh) (hpos : 0 < snd.length)
    (hlen : snd.length < 48) (text : List UInt8) :
    queueIdText (contactPrefix ++ (smpScheme ++ addressText hash host port snd text)) =
      some snd := by
  have hslash : 0x2F ∉ host ++ 0x3A :: port := by
    rw [List.mem_append, List.mem_cons, not_or, not_or]
    exact ⟨notMem_of_forall h.host (by decide), by decide, notMem_of_forall h.port (by decide)⟩
  have hbehind : behindChar 0x2F (host ++ 0x3A :: (port ++ 0x2F :: (snd ++ 0x23 :: (dhQuery ++
      (text ++ 0x26 :: contactQuery))))) =
      some (snd ++ 0x23 :: (dhQuery ++ (text ++ 0x26 :: contactQuery))) := by
    rw [← List.cons_append, ← List.append_assoc]
    exact behindChar_append hslash _
  have hbefore : beforeChars [0x23, 0x3F]
      (snd ++ 0x23 :: (dhQuery ++ (text ++ 0x26 :: contactQuery))) = snd := by
    refine beforeChars_append (fun d hd => ?_) List.mem_cons_self _
    simp only [List.mem_cons, List.not_mem_nil, or_false]
    rintro (rfl | rfl)
    · exact absurd (h.snd _ hd) (by decide)
    · exact absurd (h.snd _ hd) (by decide)
  rw [queueIdText, h.serverText_eq, Option.bind_some, hbehind, Option.map_some, hbefore,
    Option.filter_some_pos]
  exact decide_eq_true ⟨hpos, hlen⟩

/-- The text of the DH key, with its padding, ends at the `&`. -/
theorem dhText_eq (h : AddressParts hash host port snd dh)
    (hpos : 40 < (dh ++ [0x3D]).length) (hlen : (dh ++ [0x3D]).length < 120) :
    dhText (contactPrefix ++ (smpScheme ++ addressText hash host port snd (dh ++ [0x3D]))) =
      some (dh ++ [0x3D]) := by
  have hequals : 0x3D ∉ hash ++ 0x40 :: (host ++ 0x3A :: (port ++ 0x2F :: snd)) := by
    simp only [List.mem_append, List.mem_cons, not_or]
    exact ⟨notMem_of_forall h.hash (by decide), by decide,
      notMem_of_forall h.host (by decide), by decide, notMem_of_forall h.port (by decide),
      by decide, notMem_of_forall h.snd (by decide)⟩
  have hsplit : addressText hash host port snd (dh ++ [0x3D]) =
      (hash ++ 0x40 :: (host ++ 0x3A :: (port ++ 0x2F :: snd))) ++ 0x23 :: (dhQuery ++
        (dh ++ [0x3D] ++ 0x26 :: contactQuery)) := by
    simp only [addressText, List.append_assoc, List.cons_append]
  have hfind : findBehind dhParam (addressText hash host port snd (dh ++ [0x3D])) =
      some (dh ++ [0x3D] ++ 0x26 :: contactQuery) := by
    rw [hsplit, findBehind_skip (show (0x3D : UInt8) ∈ dhParam by decide) hequals (by decide)]
    rfl
  have hbefore : beforeChars [0x26, 0x20, 0x23] (dh ++ [0x3D] ++ 0x26 :: contactQuery) =
      dh ++ [0x3D] := by
    refine beforeChars_append (fun d hd => ?_) List.mem_cons_self _
    simp only [List.mem_cons, List.not_mem_nil, or_false]
    rw [List.mem_append, List.mem_singleton] at hd
    rcases hd with hd | rfl
    · rintro (rfl | rfl | rfl)
      · exact absurd (h.dh _ hd) (by decide)
      · exact absurd (h.dh _ hd) (by decide)
      · exact absurd (h.dh _ hd) (by decide)
    · decide
  rw [dhText, smpAddress_link, Option.bind_some, hfind, Option.map_some, hbefore,
    Option.filter_some_pos]
  exact decide_eq_true ⟨hpos, hlen⟩

end AddressParts

/-! ### The round trip -/

/-- An array that is overwritten with another becomes the other. -/
theorem overwrite_toList_eq {n : ℕ} (a b : Bytes n) : overwrite a b.toList = b := by
  apply Vector.toList_inj.1
  rw [overwrite_toList, List.take_of_length_le (by simp), List.drop_of_length_le (by simp),
    List.append_nil]

/-- The key stands behind the header. -/
theorem bytesAt_spki (key : Bytes 32) : bytesAt (x25519SpkiHeader ++ key.toList) 12 32 = key := by
  apply Vector.ext
  intro i hi
  have hheader : x25519SpkiHeader.length = 12 := rfl
  rw [bytesAt, Vector.getElem_ofFn, List.getD_append_right _ _ _ _ (by omega), hheader,
    Nat.add_sub_cancel_left, List.getD_eq_getElem _ _ (by simpa using hi), Vector.getElem_toList]

/-- The text of the DH key has 59 characters of the alphabet and one of padding. -/
theorem dhBase64_split (key : Bytes 32) :
    ∃ dh, dhBase64 key = dh ++ [0x3D] ∧ dh.length = 59 ∧ (∀ c ∈ dh, IsBase64Char c) ∧
      base64urlDecode (dh ++ [0x3D]) 48 = (44, x25519SpkiHeader ++ key.toList) := by
  have hlen : (x25519SpkiHeader ++ key.toList).length = 44 := by
    rw [List.length_append, Vector.length_toList]
    rfl
  obtain ⟨hdecode, dh, hsplit, hdh, hchars⟩ :=
    base64urlDecode_padded (show (x25519SpkiHeader ++ key.toList).length ≤ 48 by omega)
  rw [hlen] at hdecode hsplit hdh
  refine ⟨dh, hsplit, hdh, hchars, ?_⟩
  rw [hsplit] at hdecode
  exact hdecode

set_option maxRecDepth 8192 in
/-- A link of printable characters is found in the text. -/
theorem extractFullInvitationUri_link {enc : List UInt8}
    (hprint : ∀ c ∈ enc, 32 ≤ c ∧ c < 127) (hlow : 30 ≤ enc.length)
    (hhigh : enc.length < 16000) :
    extractFullInvitationUri true (contactPrefix ++ enc) = some (contactPrefix ++ enc) := by
  have hlen : (contactPrefix ++ enc).length = 29 + enc.length := by
    rw [List.length_append]
    rfl
  have hall : (contactPrefix ++ enc).takeWhile (fun b => 32 ≤ b ∧ b < 127) =
      contactPrefix ++ enc := by
    refine List.takeWhile_eq_self_iff.mpr fun c hc => decide_eq_true ?_
    rcases List.mem_append.mp hc with hc | hc
    · exact (show ∀ c ∈ contactPrefix, 32 ≤ c ∧ c < 127 by decide) c hc
    · exact hprint c hc
  obtain ⟨c, rest, hcons⟩ : ∃ c rest, contactPrefix ++ enc = c :: rest := ⟨_, _, rfl⟩
  have hscheme : simplexScheme.isPrefixOf (contactPrefix ++ enc) = true := by
    rw [List.isPrefixOf_iff_prefix, contactPrefix, List.append_assoc]
    exact List.prefix_append _ _
  rw [hcons] at hlen hall hscheme ⊢
  rw [extractFullInvitationUri, hall, if_pos ⟨by omega, hscheme, by omega, by omega, rfl⟩]

/-- The parser reads the address of a link back. -/
theorem parseUri_address {hash host port snd dh : List UInt8} {keyHash key : Bytes 32}
    {senderId : List UInt8} (h : AddressParts hash host port snd dh)
    (hhash : base64urlDecode hash 32 = (32, keyHash.toList)) (hhashLen : hash.length = 43)
    (hfit : (host ++ 0x3A :: port).length < 63)
    (hsnd : base64urlDecode snd 32 = ((senderId.length : ℤ), senderId))
    (hsndPos : 0 < snd.length) (hsndLen : snd.length < 48) (hsender : senderId.length ≤ 32)
    (hdh : base64urlDecode (dh ++ [0x3D]) 48 = (44, x25519SpkiHeader ++ key.toList))
    (hdhLen : dh.length = 59) (stack : List UInt8) (p : PeerQueue) :
    let q := p.parseUri stack
      (contactPrefix ++ (smpScheme ++ addressText hash host port snd (dh ++ [0x3D])))
    cString q.host = host ∧ q.port = atoi port ∧ q.keyHash = keyHash ∧
      q.queueIdLen = senderId.length ∧ q.queueId.toList.take senderId.length = senderId ∧
      q.hasDh = 1 ∧ q.dhPublic = key := by
  have htext : (dh ++ [0x3D]).length = 60 := by
    rw [List.length_append, hdhLen]
    rfl
  have hcolon : 0x3A ∉ host := notMem_of_forall h.host (by decide)
  have hkey : dhKey stack
      (contactPrefix ++ (smpScheme ++ addressText hash host port snd (dh ++ [0x3D]))) =
        some key := by
    have hshort : (if (dh ++ [0x3D]).length < 100 then dh ++ [0x3D] else
        dh ++ [0x3D] ++ stack.takeWhile (· ≠ 0)) = dh ++ [0x3D] := if_pos (by omega)
    rw [dhKey, h.dhText_eq (by omega) (by omega), Option.bind_some]
    simp only [hshort, hdh]
    rw [if_pos (by decide), bytesAt_spki]
  have harray : hostArray (host ++ 0x3A :: port) = host ++ 0 :: (port ++ [0]) := by
    rw [hostArray, behindChar_append hcolon]
    dsimp only
    rw [beforeChars_append (fun d hd => ?_) List.mem_cons_self]
    rw [List.mem_singleton]
    rintro rfl
    exact hcolon hd
  have hport : portOf (host ++ 0x3A :: port) = atoi port := by
    rw [portOf, behindChar_append hcolon]
  have hhost : cString (overwrite p.host (host ++ 0 :: (port ++ [0]))) = host := by
    rw [cString_overwrite _ _ (by simp), List.takeWhile_append_of_pos,
      List.takeWhile_cons_of_neg (by simp), List.append_nil]
    · exact fun d hd => decide_eq_true fun h0 =>
        absurd (h0 ▸ h.host d hd) (show ¬ IsHostChar 0 by decide)
    · simp only [List.length_append, List.length_cons, List.length_nil] at hfit ⊢
      omega
  intro q
  have hq : q = p.parseUri stack
      (contactPrefix ++ (smpScheme ++ addressText hash host port snd (dh ++ [0x3D]))) := rfl
  rw [parseUri_eq, h.fingerprintText_eq (by omega) (by omega), h.hostText_eq hfit,
    h.queueIdText_eq hsndPos hsndLen, hkey] at hq
  simp only [Option.elim_some, harray, hport, hhash, hsnd] at hq
  rw [hq]
  exact ⟨hhost, rfl, overwrite_toList_eq _ _, rfl, overwrite_take _ hsender, rfl, rfl⟩

/-- The link of a contact and what the passes of the parser make of it. -/
theorem inviteLink_decoded {contacts : ℕ → Contact} {slot : ℤ} (hslot : 0 ≤ slot ∧ slot < 128)
    (hactive : (contacts slot.toNat).isActive = true) (caHash : Bytes 32)
    {hash host port snd dh : List UInt8} {n : ℤ} (h : AddressParts hash host port snd dh)
    (hhash : base64urlEncode caHash.toList 64 = hash) (hport : decimal n = port)
    (hsnd : base64urlEncode ((contacts slot.toNat).senderId.toList.take
      (contacts slot.toNat).senderIdLen.toNat) 64 = snd)
    (hdh : dhBase64 (contacts slot.toNat).rcvDhPublic = dh ++ [0x3D])
    (hhashLen : hash.length = 43) (hfit : (host ++ 0x3A :: port).length < 63)
    (hsndLen : snd.length < 48) (hdhLen : dh.length = 59) {outLen : ℕ} (hout : 1024 ≤ outLen) :
    ∃ link, getInviteLinkForSlot contacts slot caHash host n outLen = some link ∧
      ∀ stack, invitationUri ⟨true, stack⟩ link =
        some (contactPrefix ++ (smpScheme ++ addressText hash host port snd (dh ++ [0x3D]))) := by
  have hescape : escapePadding (dh ++ [0x3D]) 0 = dh ++ [0x25, 0x33, 0x44] :=
    escapePadding_append (notMem_of_forall h.dh (by decide)) 0 (by omega)
  have hlen : (smpScheme ++ addressText hash host port snd
      (dh ++ [0x25, 0x33, 0x44])).length < 240 := by
    rw [List.length_append, List.length_cons] at hfit
    simp only [smpScheme, addressText, dhQuery, contactQuery, List.length_append,
      List.length_cons, List.length_nil]
    omega
  have huri : smpUri (contacts slot.toNat) caHash host n =
      smpScheme ++ addressText hash host port snd (dh ++ [0x25, 0x33, 0x44]) := by
    rw [smpUri, hhash, hport, hsnd, hdh, hescape, List.take_of_length_le (by omega)]
  obtain ⟨enc, henc⟩ : ∃ enc, enc = (smpScheme ++ addressText hash host port snd
      (dh ++ [0x25, 0x33, 0x44])).flatMap urlEncodeChar := ⟨_, rfl⟩
  have hhigh : enc.length ≤ 720 := by
    have := flatMap_urlEncodeChar_length_le
      (smpScheme ++ addressText hash host port snd (dh ++ [0x25, 0x33, 0x44]))
    rw [henc]
    omega
  have hlow : 30 ≤ enc.length := by
    have := length_le_flatMap_urlEncodeChar
      (smpScheme ++ addressText hash host port snd (dh ++ [0x25, 0x33, 0x44]))
    rw [List.length_append, addressText, List.length_append, hhashLen] at this
    rw [henc, addressText]
    omega
  have hprint : ∀ c ∈ enc, 32 ≤ c ∧ c < 127 := by
    intro c hc
    rw [henc] at hc
    obtain ⟨d, -, hd⟩ := List.mem_flatMap.mp hc
    exact urlEncodeChar_printable d c hd
  have hstart : contactPrefix.length = 29 := rfl
  refine ⟨contactPrefix ++ enc, ?_, fun stack => ?_⟩
  · rw [getInviteLinkForSlot, if_neg (by rw [hactive]; simp; omega), huri,
      urlEncode_eq 1024 _ 0 (by omega), ← henc, List.take_of_length_le]
    rw [List.length_append]
    omega
  · rw [invitationUri, extractFullInvitationUri_link hprint hlow (by omega), Option.map_some, henc,
      decodePasses_link h]

/-- Whatever the contact, the server and the port: the link of `get_invite_link_for_slot` is
parsed to the host, the port, the key hash, the queue id and the DH key it was made from. -/
theorem inviteLink_roundTrip (contacts : ℕ → Contact) {slot : ℤ} (hslot : 0 ≤ slot ∧ slot < 128)
    (hactive : (contacts slot.toNat).isActive = true)
    (hsender : 1 ≤ (contacts slot.toNat).senderIdLen ∧ (contacts slot.toNat).senderIdLen ≤ 24)
    (caHash : Bytes 32) {host : List UInt8} (hhost : ∀ c ∈ host, IsHostChar c) (port : Int32)
    (hfit : (host ++ 0x3A :: decimal port.toInt).length < 63) {outLen : ℕ}
    (hout : 1024 ≤ outLen) :
    ∃ link, getInviteLinkForSlot contacts slot caHash host port.toInt outLen = some link ∧
      ∀ (stack : List UInt8) (p : PeerQueue),
        let c := contacts slot.toNat
        let q := parseInvitation ⟨true, stack⟩ link p
        cString q.host = host ∧ q.port = port.toInt ∧ q.keyHash = caHash ∧
          q.queueIdLen = c.senderIdLen.toNat ∧
          q.queueId.toList.take c.senderIdLen.toNat =
            c.senderId.toList.take c.senderIdLen.toNat ∧
          q.hasDh = 1 ∧ q.dhPublic = c.rcvDhPublic := by
  have hpos : 1 ≤ (contacts slot.toNat).senderIdLen.toNat := UInt8.le_iff_toNat_le.mp hsender.1
  have hmax : (contacts slot.toNat).senderIdLen.toNat ≤ 24 := UInt8.le_iff_toNat_le.mp hsender.2
  have hid : ((contacts slot.toNat).senderId.toList.take
      (contacts slot.toNat).senderIdLen.toNat).length =
      (contacts slot.toNat).senderIdLen.toNat := by
    rw [List.length_take, Vector.length_toList]
    omega
  have hca : caHash.toList.length = 32 := Vector.length_toList
  -- the parts and their decodings
  obtain ⟨hhash, hhashLen, hhashChars⟩ := base64urlDecode_encode
    (show (4 * ((caHash.toList.length + 2) / 3) : ℕ) < (64 : ℤ) by omega)
    (show caHash.toList.length ≤ 32 by omega)
  obtain ⟨hsnd, hsndLen, hsndChars⟩ := base64urlDecode_encode
    (show (4 * ((((contacts slot.toNat).senderId.toList.take
      (contacts slot.toNat).senderIdLen.toNat).length + 2) / 3) : ℕ) < (64 : ℤ) by omega)
    (show ((contacts slot.toNat).senderId.toList.take
      (contacts slot.toNat).senderIdLen.toNat).length ≤ 32 by omega)
  obtain ⟨dh, hdh, hdhLen, hdhChars, hdhDecode⟩ :=
    dhBase64_split (contacts slot.toNat).rcvDhPublic
  rw [hca] at hhash hhashLen
  have hparts : AddressParts (base64urlEncode caHash.toList 64) host (decimal port.toInt)
      (base64urlEncode ((contacts slot.toNat).senderId.toList.take
        (contacts slot.toNat).senderIdLen.toNat) 64) dh :=
    ⟨hhashChars, hhost, fun _ hc => isHostChar_of_mem_decimal hc, hsndChars, hdhChars⟩
  obtain ⟨link, hlink, huri⟩ := inviteLink_decoded hslot hactive caHash hparts rfl rfl rfl hdh
    hhashLen hfit (by omega) hdhLen hout
  refine ⟨link, hlink, fun stack p => ?_⟩
  have hparse := parseUri_address hparts hhash hhashLen hfit hsnd (by omega) (by omega) (by omega)
    hdhDecode hdhLen stack p
  rw [atoi_decimal, hid] at hparse
  rw [parseInvitation, huri]
  exact hparse

/-- A contact with a sender id of 24 bytes. -/
def linkedContact : Contact :=
  { Contact.zero with
    senderId := Vector.replicate 24 7
    senderIdLen := 24
    rcvDhPublic := Vector.replicate 32 255
    active := 1 }

set_option maxRecDepth 8192 in
/-- Its link, for a server with a host of four characters. -/
theorem inviteLink_roundTrip_sample :
    ∃ link, getInviteLinkForSlot (fun _ => linkedContact) 3 (Vector.replicate 32 9)
        [0x61, 0x2E, 0x69, 0x6F] (5223 : Int32).toInt 1024 = some link ∧
      ∀ (stack : List UInt8) (p : PeerQueue),
        let q := parseInvitation ⟨true, stack⟩ link p
        cString q.host = [0x61, 0x2E, 0x69, 0x6F] ∧ q.port = (5223 : Int32).toInt ∧
          q.keyHash = Vector.replicate 32 9 ∧ q.queueIdLen = linkedContact.senderIdLen.toNat ∧
          q.queueId.toList.take linkedContact.senderIdLen.toNat =
            linkedContact.senderId.toList.take linkedContact.senderIdLen.toNat ∧
          q.hasDh = 1 ∧ q.dhPublic = linkedContact.rcvDhPublic :=
  inviteLink_roundTrip (fun _ => linkedContact) (by decide) rfl (by decide) (Vector.replicate 32 9)
    (by decide) 5223 (by decide) (by decide)

end SimpleGo
