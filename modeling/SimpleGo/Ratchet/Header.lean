import SimpleGo.Ratchet.State

/-!
# The message header inside an encrypted ratchet message

The plaintext header carries the sender's DH key, an optional KEM field and two counters,
padded with `#` to 88 bytes, or to 2310 bytes when PQ is on. Two parsers read it:
`ratchet_parse_msg_header` takes the DH key and the counters and skips the KEM field by its
own lengths, `pq_header_deserialize` checks every length and takes the KEM field. Both read
a decrypted header through offsets that the header itself gives, so they run on memory that
goes on after the header.

`parsed_msg_header_t` has a tag and two validity flags; the flags are set together with the
tag, so here they are one value.
-/

namespace SimpleGo

open Lib

/-- The KEM field: `PQ_KEM_NOTHING`, `PQ_KEM_PROPOSED` or `PQ_KEM_ACCEPTED` with its keys. -/
inductive MsgKem where
  | nothing
  | proposed (kemPk : Bytes 1158)
  | accepted (kemCt : Bytes 1039) (kemPk : Bytes 1158)
  deriving DecidableEq

/-- `parsed_msg_header_t`. -/
structure ParsedMsgHeader where
  version : ℕ
  dhPublic : Bytes 56
  kem : MsgKem
  pn : UInt32
  ns : UInt32
  deriving DecidableEq

/-- `MSG_HEADER_PADDED_LEN`. -/
def msgHeaderPaddedLen : ℕ := 88

/-- `MSG_HEADER_PQ_PADDED_LEN`. -/
def msgHeaderPqPaddedLen : ℕ := 2310

/-- `X448_SPKI_HDR`. -/
def x448SpkiHdr : List UInt8 :=
  [0x30, 0x42, 0x30, 0x05, 0x06, 0x03, 0x2b, 0x65, 0x6f, 0x03, 0x39, 0x00]

/-- `#` bytes. -/
def hashPadding (n : ℕ) : List UInt8 := List.replicate n 0x23

/-- The bytes of a KEM field. -/
def MsgKem.encode : MsgKem → List UInt8
  | nothing => [0x30]
  | proposed pk => [0x31, 0x50] ++ (be16 1158 ++ pk.toList)
  | accepted ct pk => [0x31, 0x41] ++ (be16 1039 ++ (ct.toList ++ (be16 1158 ++ pk.toList)))

/-- The KEM field `pq_header_serialize` writes. A state byte other than 0, 1 and 2 matches
none of its branches and writes nothing. -/
def serializeKem (isPq : Bool) (pq : PqKemState) : List UInt8 :=
  if !isPq || pq.pqKemState == 0 then MsgKem.nothing.encode
  else if pq.pqKemState = 1 then (MsgKem.proposed pq.ownKemPk).encode
  else if pq.pqKemState = 2 then (MsgKem.accepted pq.pendingCt pq.ownKemPk).encode
  else []

/-- Header content, from the version to the message number. -/
def headerContent (dhPublic : Bytes 56) (kem : List UInt8) (pn ns : UInt32) : List UInt8 :=
  be16 3 ++ ([68] ++ (x448SpkiHdr ++ (dhPublic.toList ++ (kem ++ (be32 pn ++ be32 ns)))))

/-- A header of the given padded length: content length, content, padding. -/
def paddedHeader (paddedLen : ℕ) (content : List UInt8) : List UInt8 :=
  be16 content.length ++ (content ++ hashPadding (paddedLen - (2 + content.length)))

/-- Whether a message carries PQ fields: `pq_active` and the setting. -/
def pqSendActive (enabled : Bool) (pq : PqKemState) : Bool := pq.pqActive != 0 && enabled

/-- `pq_header_serialize` for a PQ state that is not `NULL`; `none` where it returns -1. -/
def pqHeaderSerialize (bufSize : ℕ) (enabled : Bool) (dhPublic : Bytes 56) (pq : PqKemState)
    (pn ns : UInt32) : Option (List UInt8) :=
  let isPq := pqSendActive enabled pq
  let paddedLen := if isPq then msgHeaderPqPaddedLen else msgHeaderPaddedLen
  if bufSize < paddedLen then none
  else some (paddedHeader paddedLen (headerContent dhPublic (serializeKem isPq pq) pn ns))

/-- `build_msg_header`. -/
def buildMsgHeader (dhPublic : Bytes 56) (pn ns : UInt32) : List UInt8 :=
  [0x00, 80] ++ (headerContent dhPublic [0x30] pn ns ++ hashPadding (88 - 82))

/-- The KEM part of `pq_header_deserialize`: the field at offset `p` and the offset after it. -/
def deserializeKem (buf : Mem) (p : ℕ) : Except Int (MsgKem × ℕ) :=
  if buf p = 0x30 then .ok (.nothing, p + 1)
  else if buf p = 0x31 then
    if buf (p + 1) = 0x50 then
      if read16 buf (p + 2) ≠ 1158 then .error (-4)
      else .ok (.proposed (windowBytes buf (p + 4) 1158), p + 4 + 1158)
    else if buf (p + 1) = 0x41 then
      if read16 buf (p + 2) ≠ 1039 then .error (-5)
      else if read16 buf (p + 4 + 1039) ≠ 1158 then .error (-6)
      else .ok (.accepted (windowBytes buf (p + 4) 1039) (windowBytes buf (p + 6 + 1039) 1158),
        p + 6 + 1039 + 1158)
    else .error (-7)
  else .error (-8)

/-- `pq_header_deserialize`. -/
def pqHeaderDeserialize (buf : Mem) (bufLen : ℕ) : Except Int ParsedMsgHeader :=
  if bufLen < msgHeaderPaddedLen then .error (-1)
  else if bufLen < read16 buf 0 + 2 then .error (-2)
  else if buf 4 ≠ 68 then .error (-3)
  else
    let version := read16 buf 2
    match if 3 ≤ version then deserializeKem buf 73 else .ok (.nothing, 73) with
    | .error e => .error e
    | .ok (kem, p) => .ok
      { version, dhPublic := windowBytes buf 17 56, kem, pn := read32 buf p, ns := read32 buf (p + 4) }

/-- The offset of the counters in `ratchet_parse_msg_header`. -/
def skipKem (headerPlain : Mem) (mhp : ℕ) : ℕ :=
  if headerPlain mhp = 0x30 then mhp + 1
  else if headerPlain mhp = 0x31 then
    if headerPlain (mhp + 1) = 0x50 then mhp + 4 + read16 headerPlain (mhp + 2)
    else if headerPlain (mhp + 1) = 0x41 then
      let afterCt := mhp + 4 + read16 headerPlain (mhp + 2)
      afterCt + 2 + read16 headerPlain afterCt
    else mhp + 2
  else mhp + 1

/-- `ratchet_parse_msg_header`: the peer's DH key and the counters `pn` and `ns`. -/
def ratchetParseMsgHeader (headerPlain : Mem) : Option (Bytes 56 × UInt32 × UInt32) :=
  if headerPlain 4 ≠ 68 then none
  else
    let mhp := if 3 ≤ read16 headerPlain 2 then skipKem headerPlain 73 else 73
    some (windowBytes headerPlain 17 56, read32 headerPlain mhp, read32 headerPlain (mhp + 4))

/-- The KEM field a session emits in a PQ state whose state byte is 0, 1 or 2. -/
def emittedKem (isPq : Bool) (pq : PqKemState) : MsgKem :=
  if !isPq || pq.pqKemState == 0 then .nothing
  else if pq.pqKemState = 1 then .proposed pq.ownKemPk
  else .accepted pq.pendingCt pq.ownKemPk

/-- The plaintext header of `ratchet_encrypt`. -/
def messageHeader (enabled : Bool) (dhPublic : Bytes 56) (pq : PqKemState) (pn ns : UInt32) :
    Option (List UInt8) :=
  if pqSendActive enabled pq then
    pqHeaderSerialize msgHeaderPqPaddedLen enabled dhPublic pq pn ns
  else some (buildMsgHeader dhPublic pn ns)

/-! ## Reading a header back -/

@[simp] theorem x448SpkiHdr_length : x448SpkiHdr.length = 12 := rfl

@[simp] theorem hashPadding_length (n : ℕ) : (hashPadding n).length = n := List.length_replicate

/-- The length of an encoded KEM field. -/
theorem MsgKem.encode_length (kem : MsgKem) : kem.encode.length =
    match kem with
    | .nothing => 1
    | .proposed _ => 4 + 1158
    | .accepted _ _ => 6 + 1039 + 1158 := by
  cases kem <;> simp [MsgKem.encode]

/-- No KEM field overflows a PQ header. -/
theorem MsgKem.encode_length_le (kem : MsgKem) : kem.encode.length ≤ 2203 := by
  rw [MsgKem.encode_length]
  cases kem <;> simp

/-- The header content has 79 bytes and the KEM field. -/
theorem headerContent_length (dhPublic : Bytes 56) (kem : List UInt8) (pn ns : UInt32) :
    (headerContent dhPublic kem pn ns).length = 79 + kem.length := by
  simp only [headerContent, List.length_append, be16_length, List.length_cons, List.length_nil,
    x448SpkiHdr_length, Vector.length_toList, be32_length]
  omega

/-- `build_msg_header` is the padded header with no KEM field. -/
theorem buildMsgHeader_eq (dhPublic : Bytes 56) (pn ns : UInt32) :
    buildMsgHeader dhPublic pn ns =
      paddedHeader msgHeaderPaddedLen (headerContent dhPublic MsgKem.nothing.encode pn ns) := by
  have hl : (headerContent dhPublic MsgKem.nothing.encode pn ns).length = 80 := by
    rw [headerContent_length]
    rfl
  rw [paddedHeader, hl]
  rfl

/-- An encoded KEM field is read back, and parsing stops after it. -/
theorem deserializeKem_of_holds {buf : Mem} {p : ℕ} {kem : MsgKem} (h : Holds buf p kem.encode) :
    deserializeKem buf p = .ok (kem, p + kem.encode.length) := by
  rw [MsgKem.encode_length]
  cases kem with
  | nothing =>
    rw [MsgKem.encode, holds_cons] at h
    rw [deserializeKem, if_pos h.1]
  | proposed pk =>
    simp only [MsgKem.encode, holds_append, List.cons_append, List.nil_append, holds_cons,
      be16_length] at h
    obtain ⟨h₀, h₁, hlen, hpk⟩ := h
    rw [deserializeKem, h₀, if_neg (by decide), if_pos rfl, h₁, if_pos rfl,
      read16_of_holds hlen (by decide), if_neg (by decide), windowBytes_of_holds hpk, Nat.add_assoc]
  | accepted ct pk =>
    simp only [MsgKem.encode, holds_append, List.cons_append, List.nil_append, holds_cons,
      be16_length, Vector.length_toList] at h
    obtain ⟨h₀, h₁, hctLen, hct, hpkLen, hpk⟩ := h
    have hoff : p + 1 + 1 + 2 + 1039 + 2 = p + 6 + 1039 := by omega
    rw [hoff] at hpk
    rw [deserializeKem, h₀, if_neg (by decide), if_pos rfl, h₁, if_neg (by decide), if_pos rfl,
      read16_of_holds hctLen (by decide), if_neg (by decide),
      read16_of_holds hpkLen (by decide), if_neg (by decide), windowBytes_of_holds hct,
      windowBytes_of_holds hpk]
    simp only [Nat.add_assoc]

/-- The agent's parser skips an encoded KEM field. -/
theorem skipKem_of_holds {buf : Mem} {p : ℕ} {kem : MsgKem} (h : Holds buf p kem.encode) :
    skipKem buf p = p + kem.encode.length := by
  rw [MsgKem.encode_length]
  cases kem with
  | nothing =>
    rw [MsgKem.encode, holds_cons] at h
    rw [skipKem, if_pos h.1]
  | proposed pk =>
    simp only [MsgKem.encode, holds_append, List.cons_append, List.nil_append, holds_cons,
      be16_length] at h
    obtain ⟨h₀, h₁, hlen, hpk⟩ := h
    rw [skipKem, h₀, if_neg (by decide), if_pos rfl, h₁, if_pos rfl,
      read16_of_holds hlen (by decide), Nat.add_assoc]
  | accepted ct pk =>
    simp only [MsgKem.encode, holds_append, List.cons_append, List.nil_append, holds_cons,
      be16_length, Vector.length_toList] at h
    obtain ⟨h₀, h₁, hctLen, hct, hpkLen, hpk⟩ := h
    rw [skipKem, h₀, if_neg (by decide), if_pos rfl, h₁, if_neg (by decide), if_pos rfl,
      read16_of_holds hctLen (by decide)]
    simp only [Nat.add_assoc, Nat.reduceAdd] at hpkLen ⊢
    rw [read16_of_holds hpkLen (by decide)]

/-- The fields of a header in memory, up to the KEM field. -/
theorem holds_paddedHeader {buf : Mem} {paddedLen : ℕ} {dhPublic : Bytes 56} {kem : List UInt8}
    {pn ns : UInt32}
    (h : Holds buf 0 (paddedHeader paddedLen (headerContent dhPublic kem pn ns)))
    (hkem : kem.length ≤ 2203) :
    read16 buf 0 = 79 + kem.length ∧ read16 buf 2 = 3 ∧ buf 4 = 68 ∧
      windowBytes buf 17 56 = dhPublic ∧ Holds buf 73 kem ∧
      read32 buf (73 + kem.length) = pn ∧ read32 buf (73 + kem.length + 4) = ns := by
  rw [paddedHeader, headerContent_length] at h
  simp only [headerContent, holds_append, be16_length, x448SpkiHdr_length, Vector.length_toList,
    be32_length, List.cons_append, List.nil_append, holds_cons, Nat.zero_add, Nat.reduceAdd] at h
  obtain ⟨hlen, ⟨hver, hkey, -, hdh, hkem', hpn, hns⟩, -⟩ := h
  exact ⟨read16_of_holds hlen (by omega), read16_of_holds hver (by decide), hkey,
    windowBytes_of_holds hdh, hkem', read32_of_holds hpn, read32_of_holds hns⟩

/-- `pq_header_deserialize` inverts the serializer, whatever lies after the header. -/
theorem pqHeaderDeserialize_of_holds {buf : Mem} {paddedLen : ℕ} {dhPublic : Bytes 56}
    {kem : MsgKem} {pn ns : UInt32}
    (h : Holds buf 0 (paddedHeader paddedLen (headerContent dhPublic kem.encode pn ns)))
    (hmin : msgHeaderPaddedLen ≤ paddedLen) (hfit : 81 + kem.encode.length ≤ paddedLen) :
    pqHeaderDeserialize buf paddedLen = .ok { version := 3, dhPublic, kem, pn, ns } := by
  obtain ⟨hlen, hver, hkey, hdh, hkem, hpn, hns⟩ := holds_paddedHeader h kem.encode_length_le
  rw [pqHeaderDeserialize, if_neg (by omega), if_neg (by omega), if_neg (by simp [hkey])]
  simp only [hver, Nat.le_refl, if_true, deserializeKem_of_holds hkem, hdh, hpn, hns]

/-- `ratchet_parse_msg_header` inverts the serializer, whatever lies after the header. -/
theorem ratchetParseMsgHeader_of_holds {buf : Mem} {paddedLen : ℕ} {dhPublic : Bytes 56}
    {kem : MsgKem} {pn ns : UInt32}
    (h : Holds buf 0 (paddedHeader paddedLen (headerContent dhPublic kem.encode pn ns))) :
    ratchetParseMsgHeader buf = some (dhPublic, pn, ns) := by
  obtain ⟨-, hver, hkey, hdh, hkem, hpn, hns⟩ := holds_paddedHeader h kem.encode_length_le
  rw [ratchetParseMsgHeader, if_neg (by simp [hkey])]
  simp only [hver, Nat.le_refl, if_true, skipKem_of_holds hkem, hdh, hpn, hns]

/-- The three KEM states. -/
theorem pqKemState_cases {b : UInt8} (h : b ≤ 2) : b = 0 ∨ b = 1 ∨ b = 2 := by
  have hb : b.toNat ≤ 2 := h
  rcases Nat.lt_or_ge b.toNat 1 with h0 | h1
  · exact .inl (UInt8.toNat_inj.mp (by change b.toNat = 0; omega))
  · rcases Nat.lt_or_ge b.toNat 2 with h1' | h2
    · exact .inr (.inl (UInt8.toNat_inj.mp (by change b.toNat = 1; omega)))
    · exact .inr (.inr (UInt8.toNat_inj.mp (by change b.toNat = 2; omega)))

/-- In states 0, 1 and 2 the serializer writes the emitted field. -/
theorem serializeKem_eq_encode (isPq : Bool) (pq : PqKemState) (hst : pq.pqKemState ≤ 2) :
    serializeKem isPq pq = (emittedKem isPq pq).encode := by
  rcases pqKemState_cases hst with h | h | h <;> cases isPq <;> simp [serializeKem, emittedKem, h]

/-- The header length of `ratchet_encrypt`: `hdr_padded`. -/
def hdrPadded (isPq : Bool) : ℕ := if isPq then msgHeaderPqPaddedLen else msgHeaderPaddedLen

/-- Both builders give a padded header with the emitted KEM field. -/
theorem messageHeader_eq (enabled : Bool) (dhPublic : Bytes 56) (pq : PqKemState)
    (pn ns : UInt32) (hst : pq.pqKemState ≤ 2) :
    messageHeader enabled dhPublic pq pn ns =
      some (paddedHeader (hdrPadded (pqSendActive enabled pq))
        (headerContent dhPublic (emittedKem (pqSendActive enabled pq) pq).encode pn ns)) := by
  rw [messageHeader]
  by_cases hpq : pqSendActive enabled pq = true
  · rw [if_pos hpq, pqHeaderSerialize]
    simp only [hpq, if_true, Nat.lt_irrefl, if_false, serializeKem_eq_encode _ _ hst, hdrPadded]
  · have hpq' : pqSendActive enabled pq = false := by simpa using hpq
    rw [if_neg hpq, hpq', buildMsgHeader_eq]
    rfl

/-- An emitted field fits its header. -/
theorem emittedKem_fits (isPq : Bool) (pq : PqKemState) :
    81 + (emittedKem isPq pq).encode.length ≤ hdrPadded isPq := by
  cases isPq with
  | true =>
    have hle := MsgKem.encode_length_le (emittedKem true pq)
    simp only [hdrPadded, if_true, msgHeaderPqPaddedLen]
    omega
  | false => simp [emittedKem, MsgKem.encode, hdrPadded, msgHeaderPaddedLen]

/-- A header is padded to 88 bytes at least. -/
theorem hdrPadded_le (isPq : Bool) : msgHeaderPaddedLen ≤ hdrPadded isPq := by
  cases isPq <;> decide

/-- A padded header has its padded length. -/
theorem paddedHeader_length {paddedLen : ℕ} {content : List UInt8}
    (h : 2 + content.length ≤ paddedLen) : (paddedHeader paddedLen content).length = paddedLen := by
  simp only [paddedHeader, List.length_append, be16_length, hashPadding_length]
  omega

end SimpleGo
