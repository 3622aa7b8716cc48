import Mathlib.Data.List.GetD
import Mathlib.Data.List.Infix
import SimpleGo.Lib.Strings
import SimpleGo.Net.Framing

/-!
# The certificates of a server

`parse_cert_chain` looks for the bytes `30 82`, with which a certificate of at least 256 bytes
begins, and takes its length from the two bytes behind them: once from the start of the
ServerHello and once from the end of the certificate found first. A ServerHello has a version
range, a session id, and then the two certificates inside their framing.
-/

namespace SimpleGo

open Lib

/-! ### The parser -/

/-- A range of a block. -/
structure CertRange where
  off : ℕ
  len : ℕ
  deriving DecidableEq

/-- What `parse_cert_chain` returns; an offset of `-1` comes without a length. -/
structure CertChain where
  ret : ℤ
  cert1 : Option CertRange
  cert2 : Option CertRange
  deriving DecidableEq

/-- `data[i] == 0x30 && data[i+1] == 0x82`. -/
def isSequence (data : List UInt8) (i : ℕ) : Bool :=
  data.getD i 0 == 0x30 && data.getD (i + 1) 0 == 0x82

/-- `((data[i+2] << 8) | data[i+3]) + 4`. -/
def sequenceLength (data : List UInt8) (i : ℕ) : ℕ :=
  (data.getD (i + 2) 0).toNat * 256 + (data.getD (i + 3) 0).toNat + 4

/-- The loop `for (int i = start; i < len - 4; i++)`. -/
def findSequence (data : List UInt8) (start : ℕ) : Option ℕ :=
  (List.range' start (data.length - 4 - start)).find? (isSequence data)

/-- `parse_cert_chain`. -/
def parseCertChain (data : List UInt8) : CertChain :=
  match findSequence data 0 with
  | none => ⟨-1, none, none⟩
  | some cert1Off =>
    let cert1Len := sequenceLength data cert1Off
    ⟨0, some ⟨cert1Off, cert1Len⟩, (findSequence data (cert1Off + cert1Len)).map fun cert2Off =>
      ⟨cert2Off, sequenceLength data cert2Off⟩⟩

/-- The hash of the CA certificate in `smp_connect`: of the second range, or of the first. Where
nothing is found the code hashes from offset `-1`, with a length that is not set. -/
def caHash (sha256 : List UInt8 → Bytes 32) (hello : List UInt8) : Option (Bytes 32) :=
  let chain := parseCertChain hello
  (chain.cert2.or chain.cert1).map fun r => sha256 ((hello.drop r.off).take r.len)

/-! ### A ServerHello -/

/-- The length of a DER value, up to 65535. -/
def derLength (n : ℕ) : List UInt8 :=
  if n < 128 then [UInt8.ofNat n]
  else if n < 256 then [0x81, UInt8.ofNat n]
  else 0x82 :: be16 n

/-- A DER sequence with this content; a certificate is one. -/
def derSequence (content : List UInt8) : List UInt8 :=
  0x30 :: (derLength content.length ++ content)

/-- A tag and at most three bytes of length come in front of the content. -/
theorem derSequence_length_le (content : List UInt8) :
    (derSequence content).length ≤ content.length + 4 := by
  rw [derSequence, derLength]
  split_ifs <;> simp [be16]

/-- The parts of a ServerHello: the certificates by their contents, and the framing in front of
them and behind them. -/
structure ServerHelloParts where
  minVersion : UInt16
  maxVersion : UInt16
  sessionId : Bytes 32
  beforeLeaf : List UInt8
  leaf : List UInt8
  beforeCa : List UInt8
  ca : List UInt8
  afterCa : List UInt8

namespace ServerHelloParts

variable (h : ServerHelloParts)

/-- What comes in front of the leaf certificate. -/
def front : List UInt8 :=
  be16 h.minVersion.toNat ++ be16 h.maxVersion.toNat ++ 32 :: (h.sessionId.toList ++ h.beforeLeaf)

/-- The bytes. -/
def encode : List UInt8 :=
  h.front ++ (derSequence h.leaf ++ (h.beforeCa ++ (derSequence h.ca ++ h.afterCa)))

/-- The place of the leaf certificate. -/
def leafRange : CertRange := ⟨h.front.length, (derSequence h.leaf).length⟩

/-- The place of the CA certificate. -/
def caRange : CertRange :=
  ⟨h.front.length + (derSequence h.leaf).length + h.beforeCa.length, (derSequence h.ca).length⟩

/-- The parts are not much longer than their contents. -/
theorem encode_length_le : h.encode.length ≤
    45 + h.beforeLeaf.length + h.leaf.length + h.beforeCa.length + h.ca.length +
      h.afterCa.length := by
  have hleaf := derSequence_length_le h.leaf
  have hca := derSequence_length_le h.ca
  simp only [encode, front, List.length_append, List.length_cons, be16_length,
    Vector.length_toList]
  omega

end ServerHelloParts

/-- A ServerHello in a block, behind its two bytes of length. -/
structure ServerHello extends ServerHelloParts where
  fits : toServerHelloParts.encode.length + 2 ≤ smpBlockSize

/-- The bytes `30 82` do not occur. -/
def NoSequence (bytes : List UInt8) : Prop := ¬ [0x30, 0x82] <:+: bytes

/-- Both certificates have at least 256 bytes of content, and no byte in front of the leaf or
between the two begins a `30 82`. -/
structure ServerHello.Plain (h : ServerHello) : Prop where
  leaf : 256 ≤ h.leaf.length
  ca : 256 ≤ h.ca.length
  front : NoSequence h.front
  beforeCa : NoSequence h.beforeCa

/-- The parser finds the two certificates. -/
def ServerHello.Extracted (h : ServerHello) : Prop :=
  parseCertChain h.encode = ⟨0, some h.leafRange, some h.caRange⟩

/-- The parser fails, or its ranges lie in the block. -/
def RangesInside (data : List UInt8) : Prop :=
  (parseCertChain data).ret ≠ 0 ∨
    (∀ r ∈ (parseCertChain data).cert1, r.off + r.len ≤ data.length) ∧
      ∀ r ∈ (parseCertChain data).cert2, r.off + r.len ≤ data.length

/-- The first `30 82` from a position on, at least five bytes in front of the end. -/
structure FirstSequence (data : List UInt8) (start i : ℕ) : Prop where
  start_le : start ≤ i
  lt : i + 4 < data.length
  found : isSequence data i = true
  first : ∀ j, start ≤ j → j < i → isSequence data j = false

/-- The length behind the first `30 82` ends in the block, and so does the one behind the first
`30 82` after that. -/
def LengthsInside (data : List UInt8) : Prop :=
  ∀ i, FirstSequence data 0 i → i + sequenceLength data i ≤ data.length ∧
    ∀ j, FirstSequence data (i + sequenceLength data i) j →
      j + sequenceLength data j ≤ data.length

/-! ### The search -/

/-- The loop finds the first `30 82`. -/
theorem findSequence_eq_some {data : List UInt8} {start i : ℕ} :
    findSequence data start = some i ↔ FirstSequence data start i := by
  rw [findSequence, List.find?_range'_eq_some, List.mem_range'_1]
  constructor
  · rintro ⟨hfound, hrange, hfirst⟩
    exact ⟨hrange.1, by omega, hfound, fun j hstart hj => by simpa using hfirst j hstart hj⟩
  · intro h
    have := h.lt
    have := h.start_le
    exact ⟨h.found, by omega, fun j hstart hj => by simp [h.first j hstart hj]⟩

/-- A `30 82` in the first part of a block. -/
theorem isSequence_append_left {pre : List UInt8} (rest : List UInt8) {j : ℕ}
    (hj : j + 1 < pre.length) : isSequence (pre ++ rest) j = isSequence pre j := by
  rw [isSequence, isSequence, List.getD_append _ _ _ _ (by omega), List.getD_append _ _ _ _ hj]

/-- A byte behind the first part of a block. -/
theorem getD_append_length (pre rest : List UInt8) (k : ℕ) :
    (pre ++ rest).getD (pre.length + k) 0 = rest.getD k 0 := by
  rw [List.getD_append_right _ _ _ _ (Nat.le_add_right ..), Nat.add_sub_cancel_left]

/-- Bytes without a `30 82`. -/
theorem noSequence_iff (bytes : List UInt8) :
    NoSequence bytes ↔ ∀ j, j + 1 < bytes.length → isSequence bytes j = false := by
  rw [NoSequence, List.infix_iff_getElem?]
  constructor
  · intro h j hj
    by_contra hfound
    simp only [isSequence, Bool.not_eq_false, Bool.and_eq_true, beq_iff_eq] at hfound
    refine h ⟨j, by simp; omega, fun i hi => ?_⟩
    match i, hi with
    | 0, _ => rw [Nat.zero_add, List.getElem?_eq_getElem (by omega), ← List.getD_eq_getElem _ 0,
        hfound.1]; rfl
    | 1, _ => rw [Nat.add_comm, List.getElem?_eq_getElem hj, ← List.getD_eq_getElem _ 0,
        hfound.2]; rfl
  · rintro h ⟨k, hk, hbytes⟩
    have hk' : k + 1 < bytes.length := by
      simp only [List.length_cons, List.length_nil] at hk
      omega
    have hfirst := hbytes 0 (by decide)
    have hsecond := hbytes 1 (by decide)
    rw [Nat.zero_add] at hfirst
    rw [Nat.add_comm] at hsecond
    have hfound : isSequence bytes k = true := by
      rw [isSequence, List.getD_eq_getElem?_getD, List.getD_eq_getElem?_getD, hfirst, hsecond]
      rfl
    exact nomatch (h k hk').symm.trans hfound

/-- Whether a certificate begins with `30 82`. -/
theorem isSequence_der (content post : List UInt8) :
    isSequence (derSequence content ++ post) 0 = true ↔ 256 ≤ content.length := by
  have hbyte : ∀ n < 128, UInt8.ofNat n ≠ 0x82 := by decide
  rw [derSequence, derLength]
  by_cases hshort : content.length < 128
  · rw [if_pos hshort]
    exact iff_of_false (by simp [isSequence, hbyte _ hshort]) (by omega)
  rw [if_neg hshort]
  by_cases hmiddle : content.length < 256
  · rw [if_pos hmiddle]
    exact iff_of_false (by simp [isSequence]) (by omega)
  · rw [if_neg hmiddle]
    exact iff_of_true rfl (by omega)

/-- A certificate is the first `30 82` when it is long and none is in front of it. -/
theorem firstSequence_der {pre : List UInt8} (content post : List UInt8) {start : ℕ}
    (hstart : start ≤ pre.length) :
    FirstSequence (pre ++ (derSequence content ++ post)) start pre.length ↔
      256 ≤ content.length ∧ NoSequence (pre.drop start) := by
  have hat : isSequence (pre ++ (derSequence content ++ post)) pre.length =
      isSequence (derSequence content ++ post) 0 := by
    rw [isSequence, isSequence, ← Nat.add_zero pre.length, getD_append_length, Nat.add_zero,
      getD_append_length]
  -- the byte in front of the certificate is followed by its tag
  have hedge : ∀ j, j + 1 = pre.length →
      isSequence (pre ++ (derSequence content ++ post)) j = false := by
    intro j hj
    rw [isSequence, hj, ← Nat.add_zero pre.length, getD_append_length]
    simp [derSequence]
  have hdrop : ∀ k, k + 1 < (pre.drop start).length →
      isSequence (pre.drop start) k =
        isSequence (pre ++ (derSequence content ++ post)) (start + k) := by
    intro k hk
    rw [List.length_drop] at hk
    rw [isSequence_append_left _ (by omega)]
    simp [isSequence, List.getD_eq_getElem?_getD, List.getElem?_drop, Nat.add_assoc]
  constructor
  · intro h
    have hfound := h.found
    rw [hat, isSequence_der] at hfound
    refine ⟨hfound, (noSequence_iff _).mpr fun k hk => ?_⟩
    have hk' := hk
    rw [List.length_drop] at hk'
    rw [hdrop k hk]
    exact h.first _ (Nat.le_add_right ..) (by omega)
  · rintro ⟨hlong, hnone⟩
    refine ⟨hstart, ?_, by rw [hat, isSequence_der]; exact hlong, fun j hj hlt => ?_⟩
    · simp only [List.length_append, derSequence, List.length_cons]
      omega
    · obtain ⟨k, rfl⟩ := Nat.exists_eq_add_of_le hj
      by_cases hlast : start + k + 1 = pre.length
      · exact hedge _ hlast
      · have hk : k + 1 < (pre.drop start).length := by
          rw [List.length_drop]
          omega
        rw [← hdrop k hk]
        exact (noSequence_iff _).mp hnone k hk

/-- The length behind the `30 82` of a certificate is its own. -/
theorem sequenceLength_der (pre : List UInt8) {content : List UInt8} (post : List UInt8)
    (hlong : 256 ≤ content.length) (hlen : content.length < 65536) :
    sequenceLength (pre ++ (derSequence content ++ post)) pre.length =
      (derSequence content).length := by
  have hder : derSequence content = 0x30 :: 0x82 :: (be16 content.length ++ content) := by
    rw [derSequence, derLength, if_neg (by omega), if_neg (by omega)]
    rfl
  have hhigh : (UInt8.ofNat (content.length / 256)).toNat = content.length / 256 :=
    UInt8.toNat_ofNat_of_lt (by rw [UInt8.size]; omega)
  have hlow : (UInt8.ofNat content.length).toNat = content.length % 256 := UInt8.toNat_ofNat'
  rw [sequenceLength, getD_append_length, getD_append_length, hder]
  change (UInt8.ofNat (content.length / 256)).toNat * 256 +
    (UInt8.ofNat content.length).toNat + 4 = _
  rw [hhigh, hlow]
  simp only [be16, List.length_cons, List.length_append, List.length_nil]
  omega

/-- The ranges of any block. -/
theorem rangesInside_iff (data : List UInt8) : RangesInside data ↔ LengthsInside data := by
  unfold RangesInside LengthsInside parseCertChain
  cases hfirst : findSequence data 0 with
  | none =>
    refine iff_of_true (.inl (Int.negSucc_ne_zero 0)) fun i hi => ?_
    rw [findSequence_eq_some.mpr hi] at hfirst
    cases hfirst
  | some i =>
    have hunique : ∀ i', FirstSequence data 0 i' ↔ i = i' := by
      intro i'
      rw [← findSequence_eq_some, hfirst, Option.some.injEq]
    simp only [hunique, forall_eq', ← findSequence_eq_some]
    cases findSequence data (i + sequenceLength data i) with
    | none => simp
    | some j => simp

/-! ### A ServerHello is parsed -/

namespace ServerHello

variable (h : ServerHello)

/-- Its certificates are far shorter than 65536 bytes. -/
theorem certificates_lt : h.leaf.length < 65536 ∧ h.ca.length < 65536 := by
  have hfits := h.fits
  have hsize : smpBlockSize = 16384 := rfl
  simp only [ServerHelloParts.encode, derSequence, List.length_append, List.length_cons] at hfits
  omega

/-- The bytes, with the CA certificate as the part that is looked for. -/
theorem encode_eq_ca : h.encode = (h.front ++ (derSequence h.leaf ++ h.beforeCa)) ++
    (derSequence h.ca ++ h.afterCa) := by
  simp only [ServerHelloParts.encode, List.append_assoc]

/-- The place of the CA certificate is behind the framing. -/
theorem caRange_off : (h.front ++ (derSequence h.leaf ++ h.beforeCa)).length = h.caRange.off := by
  simp only [ServerHelloParts.caRange, List.length_append, Nat.add_assoc]

/-- The leaf certificate is found. -/
theorem findSequence_leaf :
    findSequence h.encode 0 = some h.leafRange.off ↔ 256 ≤ h.leaf.length ∧ NoSequence h.front :=
  findSequence_eq_some.trans (firstSequence_der _ _ (Nat.zero_le _))

/-- The CA certificate is found behind the leaf certificate. -/
theorem findSequence_ca :
    findSequence h.encode (h.front.length + (derSequence h.leaf).length) = some h.caRange.off ↔
      256 ≤ h.ca.length ∧ NoSequence h.beforeCa := by
  have hdrop : (h.front ++ (derSequence h.leaf ++ h.beforeCa)).drop
      (h.front.length + (derSequence h.leaf).length) = h.beforeCa := by
    rw [← List.drop_drop, List.drop_left, List.drop_left]
  rw [findSequence_eq_some, encode_eq_ca, ← caRange_off, firstSequence_der, hdrop]
  rw [List.length_append, List.length_append]
  omega

/-- The length of the leaf certificate is read. -/
theorem sequenceLength_leaf (hlong : 256 ≤ h.leaf.length) :
    sequenceLength h.encode h.leafRange.off = h.leafRange.len :=
  sequenceLength_der _ _ hlong h.certificates_lt.1

/-- The length of the CA certificate is read. -/
theorem sequenceLength_ca (hlong : 256 ≤ h.ca.length) :
    sequenceLength h.encode h.caRange.off = h.caRange.len := by
  rw [encode_eq_ca, ← caRange_off]
  exact sequenceLength_der _ _ hlong h.certificates_lt.2

/-- The two certificates are found exactly when the ServerHello is plain. -/
theorem extracted_iff : h.Extracted ↔ h.Plain := by
  unfold Extracted parseCertChain
  constructor
  · intro hparse
    cases hfirst : findSequence h.encode 0 with
    | none =>
      rw [hfirst] at hparse
      cases hparse
    | some off =>
      rw [hfirst] at hparse
      dsimp only at hparse
      injection hparse with _ hcert1 hcert2
      injection hcert1 with hleaf
      injection hleaf with hoff hlen
      subst hoff
      obtain ⟨hlong, hfront⟩ := h.findSequence_leaf.mp hfirst
      obtain ⟨caOff, hsecond, hca⟩ := Option.map_eq_some_iff.mp hcert2
      injection hca with hcaOff hcaLen
      rw [hcaOff, hlen] at hsecond
      obtain ⟨hcaLong, hbefore⟩ := h.findSequence_ca.mp hsecond
      exact ⟨hlong, hcaLong, hfront, hbefore⟩
  · intro hplain
    rw [h.findSequence_leaf.mpr ⟨hplain.leaf, hplain.front⟩]
    dsimp only
    rw [h.sequenceLength_leaf hplain.leaf]
    change (⟨0, some h.leafRange, (findSequence h.encode
      (h.front.length + (derSequence h.leaf).length)).map _⟩ : CertChain) = _
    rw [h.findSequence_ca.mpr ⟨hplain.ca, hplain.beforeCa⟩, Option.map_some,
      h.sequenceLength_ca hplain.ca]

/-- The hash is then that of the CA certificate. -/
theorem caHash_eq (sha256 : List UInt8 → Bytes 32) (hplain : h.Plain) :
    caHash sha256 h.encode = some (sha256 (derSequence h.ca)) := by
  have hrange : (h.encode.drop h.caRange.off).take h.caRange.len = derSequence h.ca := by
    rw [encode_eq_ca, ← caRange_off, List.drop_left]
    exact List.take_left
  rw [caHash, h.extracted_iff.mpr hplain]
  change some (sha256 ((h.encode.drop h.caRange.off).take h.caRange.len)) = _
  rw [hrange]

end ServerHello

/-- Both parts of what is expected of the parser, and when they hold. -/
theorem parse_cert_chain_right_iff (h : ServerHello) (data : List UInt8) :
    (h.Extracted ↔ h.Plain) ∧ (RangesInside data ↔ LengthsInside data) :=
  ⟨h.extracted_iff, rangesInside_iff data⟩

/-- The parts of a ServerHello with two certificates of 256 bytes of content, each behind its
length. -/
def sampleHelloParts (sessionId : Bytes 32) : ServerHelloParts where
  minVersion := 6
  maxVersion := 7
  sessionId := sessionId
  beforeLeaf := 2 :: be16 260
  leaf := List.replicate 256 1
  beforeCa := be16 260
  ca := List.replicate 256 2
  afterCa := []

/-- They fit a block. -/
theorem sampleHelloParts_fits (sessionId : Bytes 32) :
    (sampleHelloParts sessionId).encode.length + 2 ≤ smpBlockSize := by
  have hlength := (sampleHelloParts sessionId).encode_length_le
  have hleaf : (sampleHelloParts sessionId).leaf.length = 256 := List.length_replicate
  have hca : (sampleHelloParts sessionId).ca.length = 256 := List.length_replicate
  have hbefore : (sampleHelloParts sessionId).beforeLeaf.length = 3 := rfl
  have hbeforeCa : (sampleHelloParts sessionId).beforeCa.length = 2 := rfl
  have hafter : (sampleHelloParts sessionId).afterCa.length = 0 := rfl
  have hsize : smpBlockSize = 16384 := rfl
  omega

/-- The ServerHello. -/
def sampleHello (sessionId : Bytes 32) : ServerHello :=
  ⟨sampleHelloParts sessionId, sampleHelloParts_fits sessionId⟩

/-- A session id that begins with `30 82` is taken for the leaf certificate; and a length of
65535 behind a `30 82` leads out of a block. -/
theorem parse_cert_chain_misled :
    ¬ (sampleHello (overwrite (zeroBytes 32) [0x30, 0x82])).Extracted ∧
      ¬ RangesInside [0x30, 0x82, 0xFF, 0xFF, 0] := by
  constructor
  · rw [ServerHello.extracted_iff]
    exact fun hplain => hplain.front ⟨[0, 6, 0, 7, 32], _, rfl⟩
  · rw [rangesInside_iff]
    intro hinside
    exact absurd (hinside 0 ⟨by decide, by decide, by decide, nofun⟩).1 (by decide)

end SimpleGo
