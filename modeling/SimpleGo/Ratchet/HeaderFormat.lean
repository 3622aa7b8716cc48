import SimpleGo.Lib.Logged
import SimpleGo.Ratchet.Header

/-!
# What the header parsers read

`pq_header_serialize` and `build_msg_header` write one format, and `pq_header_deserialize`
reads it back. On what that parser accepts the parser of the receive path agrees with it. Both
follow the lengths in the header: the definitions here are the same parsers with every read of
the buffer logged.
-/

namespace SimpleGo

open Lib Lib.Logged

/-! ### The serializers -/

/-- `pq_header_serialize` with a PQ state that may be `NULL`. -/
def pqHeaderSerializePtr (bufSize : ℕ) (enabled : Bool) (dhPublic : Bytes 56)
    (pq : Option PqKemState) (pn ns : UInt32) : Option (List UInt8) :=
  match pq with
  | some pq => pqHeaderSerialize bufSize enabled dhPublic pq pn ns
  | none =>
    if bufSize < msgHeaderPaddedLen then none
    else some (paddedHeader msgHeaderPaddedLen
      (headerContent dhPublic MsgKem.nothing.encode pn ns))

/-- `is_pq`: there is an active PQ state and the setting is on. -/
def pqPtrActive (enabled : Bool) (pq : Option PqKemState) : Bool := pq.any (pqSendActive enabled)

/-- The KEM field for a PQ state that may be `NULL`. -/
def emittedKemPtr (enabled : Bool) (pq : Option PqKemState) : MsgKem :=
  pq.elim .nothing fun pq => emittedKem (pqSendActive enabled pq) pq

/-- The serializer refuses a short buffer, and writes the padded header into any other. -/
theorem pqHeaderSerializePtr_eq (bufSize : ℕ) (enabled : Bool) (dhPublic : Bytes 56)
    {pq : Option PqKemState} (hst : ∀ s ∈ pq, s.pqKemState ≤ 2) (pn ns : UInt32) :
    pqHeaderSerializePtr bufSize enabled dhPublic pq pn ns =
      if bufSize < hdrPadded (pqPtrActive enabled pq) then none
      else some (paddedHeader (hdrPadded (pqPtrActive enabled pq))
        (headerContent dhPublic (emittedKemPtr enabled pq).encode pn ns)) := by
  cases pq with
  | none => rfl
  | some s =>
    have hkem := serializeKem_eq_encode (pqSendActive enabled s) s (hst s rfl)
    rw [pqHeaderSerializePtr, pqHeaderSerialize]
    simp only [hkem]
    rfl

/-- Without PQ the field says nothing. -/
theorem emittedKemPtr_of_inactive {enabled : Bool} {pq : Option PqKemState}
    (h : pqPtrActive enabled pq = false) : emittedKemPtr enabled pq = .nothing := by
  cases pq with
  | none => rfl
  | some s =>
    have hoff : pqSendActive enabled s = false := h
    rw [emittedKemPtr, Option.elim_some, hoff]
    rfl

/-- An emitted field fits its header. -/
theorem emittedKemPtr_fits (enabled : Bool) (pq : Option PqKemState) :
    81 + (emittedKemPtr enabled pq).encode.length ≤ hdrPadded (pqPtrActive enabled pq) := by
  cases pq with
  | none => exact Nat.le_of_ble_eq_true rfl
  | some s => exact emittedKem_fits _ _

/-- A serialized header is read back with the key, the counters and the KEM field that went
into it, and without PQ it is the header of `build_msg_header`. -/
theorem pqHeader_round_trip (bufSize : ℕ) (enabled : Bool) (dhPublic : Bytes 56)
    (pq : Option PqKemState) (hst : ∀ s ∈ pq, s.pqKemState ≤ 2) (pn ns : UInt32) :
    (hdrPadded (pqPtrActive enabled pq) ≤ bufSize →
      (pqHeaderSerializePtr bufSize enabled dhPublic pq pn ns).isSome) ∧
    ∀ header, pqHeaderSerializePtr bufSize enabled dhPublic pq pn ns = some header →
      header.length = hdrPadded (pqPtrActive enabled pq) ∧
      (∀ after, pqHeaderDeserialize (memOf header after) header.length =
        .ok { version := 3, dhPublic, kem := emittedKemPtr enabled pq, pn, ns }) ∧
      (pqPtrActive enabled pq = false → header = buildMsgHeader dhPublic pn ns) := by
  rw [pqHeaderSerializePtr_eq bufSize enabled dhPublic hst]
  have hfits := emittedKemPtr_fits enabled pq
  constructor
  · intro hsize
    rw [if_neg (by omega)]
    rfl
  · intro header hheader
    split at hheader
    · cases hheader
    · obtain rfl := Option.some.inj hheader
      have hlen : (paddedHeader (hdrPadded (pqPtrActive enabled pq)) (headerContent dhPublic
          (emittedKemPtr enabled pq).encode pn ns)).length = hdrPadded (pqPtrActive enabled pq) := by
        apply paddedHeader_length
        rw [headerContent_length]
        omega
      refine ⟨hlen, fun after => ?_, fun hoff => ?_⟩
      · rw [hlen]
        exact pqHeaderDeserialize_of_holds (holds_memOf _ _) (hdrPadded_le _) hfits
      · rw [hoff, emittedKemPtr_of_inactive hoff, buildMsgHeader_eq]
        rfl

/-- A PQ state that proposes a key, and the header it gives. -/
theorem pqHeader_round_trip_proposed :
    (2310 ≤ 2310 → (pqHeaderSerializePtr 2310 true (zeroBytes 56)
      (some { PqKemState.zero with pqActive := 1, pqKemState := 1 }) 3 7).isSome) ∧
    ∀ header, pqHeaderSerializePtr 2310 true (zeroBytes 56)
        (some { PqKemState.zero with pqActive := 1, pqKemState := 1 }) 3 7 = some header →
      header.length = 2310 ∧
      (∀ after, pqHeaderDeserialize (memOf header after) header.length =
        .ok { version := 3, dhPublic := zeroBytes 56, kem := .proposed (zeroBytes 1158)
              pn := 3, ns := 7 }) ∧
      (true = false → header = buildMsgHeader (zeroBytes 56) 3 7) :=
  pqHeader_round_trip 2310 true (zeroBytes 56)
    (some { PqKemState.zero with pqActive := 1, pqKemState := 1 })
    (fun s hs => by obtain rfl := Option.some.inj hs; decide) 3 7

/-! ### The parser of the receive path -/

/-- On a KEM field that `pq_header_deserialize` takes, both parsers find the same end. -/
theorem skipKem_of_deserializeKem {buf : Mem} {p q : ℕ} {kem : MsgKem}
    (h : deserializeKem buf p = .ok (kem, q)) : skipKem buf p = q := by
  rw [deserializeKem] at h
  rw [skipKem]
  by_cases hnothing : buf p = 0x30
  · rw [if_pos hnothing] at h ⊢
    cases h
    rfl
  rw [if_neg hnothing] at h ⊢
  by_cases hjust : buf p = 0x31
  swap
  · rw [if_neg hjust] at h
    cases h
  rw [if_pos hjust] at h ⊢
  by_cases hproposed : buf (p + 1) = 0x50
  · rw [if_pos hproposed] at h ⊢
    by_cases hpk : read16 buf (p + 2) = 1158
    · rw [if_neg (by simp [hpk])] at h
      cases h
      rw [hpk]
    · rw [if_pos hpk] at h
      cases h
  rw [if_neg hproposed] at h ⊢
  by_cases haccepted : buf (p + 1) = 0x41
  swap
  · rw [if_neg haccepted] at h
    cases h
  rw [if_pos haccepted] at h ⊢
  by_cases hct : read16 buf (p + 2) = 1039
  swap
  · rw [if_pos hct] at h
    cases h
  rw [if_neg (by simp [hct])] at h
  by_cases hpk : read16 buf (p + 4 + 1039) = 1158
  · rw [if_neg (by simp [hpk])] at h
    cases h
    simp only [hct, hpk]
  · rw [if_pos hpk] at h
    cases h

/-- What an accepted header went through. -/
theorem pqHeaderDeserialize_ok {buf : Mem} {bufLen : ℕ} {header : ParsedMsgHeader}
    (h : pqHeaderDeserialize buf bufLen = .ok header) :
    msgHeaderPaddedLen ≤ bufLen ∧ read16 buf 0 + 2 ≤ bufLen ∧ buf 4 = 68 ∧
      ∃ kem p, (if 3 ≤ read16 buf 2 then deserializeKem buf 73 else .ok (.nothing, 73)) =
          .ok (kem, p) ∧
        header = { version := read16 buf 2, dhPublic := windowBytes buf 17 56, kem
                   pn := read32 buf p, ns := read32 buf (p + 4) } := by
  rw [pqHeaderDeserialize] at h
  by_cases hmin : bufLen < msgHeaderPaddedLen
  · rw [if_pos hmin] at h
    cases h
  rw [if_neg hmin] at h
  by_cases hlen : bufLen < read16 buf 0 + 2
  · rw [if_pos hlen] at h
    cases h
  rw [if_neg hlen] at h
  by_cases hkey : buf 4 = 68
  swap
  · rw [if_pos hkey] at h
    cases h
  rw [if_neg (by simp [hkey])] at h
  refine ⟨Nat.le_of_not_lt hmin, Nat.le_of_not_lt hlen, hkey, ?_⟩
  cases hkem : (if 3 ≤ read16 buf 2 then deserializeKem buf 73 else .ok (.nothing, 73)) with
  | error e =>
    simp only [hkem] at h
    cases h
  | ok field =>
    obtain ⟨kem, p⟩ := field
    simp only [hkem, Except.ok.injEq] at h
    exact ⟨kem, p, rfl, h.symm⟩

/-- Whatever `pq_header_deserialize` accepts, the parser of the receive path accepts, with the
same DH key and counters. -/
theorem ratchetParseMsgHeader_of_deserialize {buf : Mem} {bufLen : ℕ} {header : ParsedMsgHeader}
    (h : pqHeaderDeserialize buf bufLen = .ok header) :
    ratchetParseMsgHeader buf = some (header.dhPublic, header.pn, header.ns) := by
  obtain ⟨-, -, hkey, kem, p, hkem, rfl⟩ := pqHeaderDeserialize_ok h
  rw [ratchetParseMsgHeader, if_neg (by simp [hkey])]
  by_cases hver : 3 ≤ read16 buf 2
  · rw [if_pos hver] at hkem
    simp only [if_pos hver, skipKem_of_deserializeKem hkem]
  · rw [if_neg hver] at hkem
    cases hkem
    simp only [if_neg hver]

/-- A header that accepts a proposed key, with the counters 5 and 10. -/
theorem ratchetParseMsgHeader_of_deserialize_accepted :
    ratchetParseMsgHeader (memOf (paddedHeader msgHeaderPqPaddedLen (headerContent (zeroBytes 56)
      (MsgKem.accepted (zeroBytes 1039) (zeroBytes 1158)).encode 5 10)) fun _ => 0) =
        some (zeroBytes 56, 5, 10) := by
  have hfit : 81 + (MsgKem.accepted (zeroBytes 1039) (zeroBytes 1158)).encode.length ≤
      msgHeaderPqPaddedLen := by
    rw [MsgKem.encode_length]
    decide
  exact ratchetParseMsgHeader_of_deserialize
    (pqHeaderDeserialize_of_holds (holds_memOf _ _) (by decide) hfit)

/-! ### The reads of the parsers -/

/-- `skipKem` with its reads. -/
def skipKemLogged (headerPlain : Mem) (mhp : ℕ) : Logged ℕ ℕ := do
  let kemByte ← byteAt headerPlain mhp
  if kemByte = 0x30 then return mhp + 1
  else if kemByte = 0x31 then
    let kemState ← byteAt headerPlain (mhp + 1)
    if kemState = 0x50 then
      let pkLen ← read16At headerPlain (mhp + 2)
      return mhp + 4 + pkLen
    else if kemState = 0x41 then
      let ctLen ← read16At headerPlain (mhp + 2)
      let pkLen ← read16At headerPlain (mhp + 4 + ctLen)
      return mhp + 4 + ctLen + 2 + pkLen
    else return mhp + 2
  else return mhp + 1

/-- The offset of the counters, with the reads on the way to it. -/
def countersOffsetLogged (headerPlain : Mem) (msgVersion : ℕ) : Logged ℕ ℕ :=
  if 3 ≤ msgVersion then skipKemLogged headerPlain 73 else pure 73

/-- `ratchet_parse_msg_header` with its reads. -/
def ratchetParseMsgHeaderLogged (headerPlain : Mem) :
    Logged ℕ (Option (Bytes 56 × UInt32 × UInt32)) := do
  let keyLen ← byteAt headerPlain 4
  if keyLen ≠ 68 then return none
  else
    let peerDh ← windowBytesAt headerPlain 17 56
    let msgVersion ← read16At headerPlain 2
    let mhp ← countersOffsetLogged headerPlain msgVersion
    let pn ← read32At headerPlain mhp
    let ns ← read32At headerPlain (mhp + 4)
    return some (peerDh, pn, ns)

/-- The KEM part of `pq_header_deserialize` with its reads. -/
def deserializeKemLogged (buf : Mem) (p : ℕ) : Logged ℕ (Except Int (MsgKem × ℕ)) := do
  let maybeTag ← byteAt buf p
  if maybeTag = 0x30 then return .ok (.nothing, p + 1)
  else if maybeTag = 0x31 then
    let variant ← byteAt buf (p + 1)
    if variant = 0x50 then
      let pkLen ← read16At buf (p + 2)
      if pkLen ≠ 1158 then return .error (-4)
      else
        let kemPk ← windowBytesAt buf (p + 4) 1158
        return .ok (.proposed kemPk, p + 4 + 1158)
    else if variant = 0x41 then
      let ctLen ← read16At buf (p + 2)
      if ctLen ≠ 1039 then return .error (-5)
      else
        let kemCt ← windowBytesAt buf (p + 4) 1039
        let pkLen ← read16At buf (p + 4 + 1039)
        if pkLen ≠ 1158 then return .error (-6)
        else
          let kemPk ← windowBytesAt buf (p + 6 + 1039) 1158
          return .ok (.accepted kemCt kemPk, p + 6 + 1039 + 1158)
    else return .error (-7)
  else return .error (-8)

/-- The KEM field of a version, with its reads. -/
def kemFieldLogged (buf : Mem) (version : ℕ) : Logged ℕ (Except Int (MsgKem × ℕ)) :=
  if 3 ≤ version then deserializeKemLogged buf 73 else pure (.ok (.nothing, 73))

/-- `pq_header_deserialize` with its reads. -/
def pqHeaderDeserializeLogged (buf : Mem) (bufLen : ℕ) :
    Logged ℕ (Except Int ParsedMsgHeader) := do
  if bufLen < msgHeaderPaddedLen then return .error (-1)
  else
    let contentLen ← read16At buf 0
    if bufLen < contentLen + 2 then return .error (-2)
    else
      let version ← read16At buf 2
      let keyLen ← byteAt buf 4
      if keyLen ≠ 68 then return .error (-3)
      else
        let dhPublic ← windowBytesAt buf 17 56
        match ← kemFieldLogged buf version with
        | .error e => return .error e
        | .ok (kem, p) => do
          let pn ← read32At buf p
          let ns ← read32At buf (p + 4)
          return .ok { version, dhPublic, kem, pn, ns }

/-- The logged parsers compute what the parsers compute. -/
theorem skipKemLogged_val (headerPlain : Mem) (mhp : ℕ) :
    (skipKemLogged headerPlain mhp).val = skipKem headerPlain mhp := by
  simp only [skipKemLogged, skipKem, val_bind, val_byteAt, ↓val_ite, val_pure, val_read16At]
  rfl

/-- The value of the logged search for the counters. -/
theorem countersOffsetLogged_val (headerPlain : Mem) (msgVersion : ℕ) :
    (countersOffsetLogged headerPlain msgVersion).val =
      if 3 ≤ msgVersion then skipKem headerPlain 73 else 73 := by
  simp only [countersOffsetLogged, ↓val_ite, val_pure, skipKemLogged_val]

/-- The logged parser has the value of the one without a log. -/
theorem ratchetParseMsgHeaderLogged_val (headerPlain : Mem) :
    (ratchetParseMsgHeaderLogged headerPlain).val = ratchetParseMsgHeader headerPlain := by
  simp only [ratchetParseMsgHeaderLogged, ratchetParseMsgHeader, val_bind, val_byteAt, ↓val_ite,
    val_pure, val_read16At, val_windowBytesAt, val_read32At, countersOffsetLogged_val]

/-- So has the logged KEM field. -/
theorem deserializeKemLogged_val (buf : Mem) (p : ℕ) :
    (deserializeKemLogged buf p).val = deserializeKem buf p := by
  simp only [deserializeKemLogged, deserializeKem, val_bind, val_byteAt, ↓val_ite, val_pure,
    val_read16At, val_windowBytesAt]
  rfl

/-- So has the KEM field as the version decides. -/
theorem kemFieldLogged_val (buf : Mem) (version : ℕ) : (kemFieldLogged buf version).val =
    if 3 ≤ version then deserializeKem buf 73 else .ok (.nothing, 73) := by
  simp only [kemFieldLogged, ↓val_ite, val_pure, deserializeKemLogged_val]

/-- So has the logged deserializer. -/
theorem pqHeaderDeserializeLogged_val (buf : Mem) (bufLen : ℕ) :
    (pqHeaderDeserializeLogged buf bufLen).val = pqHeaderDeserialize buf bufLen := by
  simp only [pqHeaderDeserializeLogged, pqHeaderDeserialize, val_bind, val_byteAt, ↓val_ite,
    val_pure, val_read16At, val_windowBytesAt, kemFieldLogged_val]
  cases (if 3 ≤ read16 buf 2 then deserializeKem buf 73 else .ok (.nothing, 73)) <;> rfl

/-! ### Where the fields of a header end -/

/-- The length of the KEM field, by its tag and the lengths in it. -/
def kemFieldLen (buf : Mem) : ℕ :=
  if read16 buf 2 < 3 then 0
  else if buf 73 ≠ 0x31 then 1
  else if buf 74 = 0x50 then 4 + read16 buf 75
  else if buf 74 = 0x41 then 4 + read16 buf 75 + (2 + read16 buf (77 + read16 buf 75))
  else 2

/-- The end of the counters, which come last. -/
def fieldsEnd (buf : Mem) : ℕ := 81 + kemFieldLen buf

/-- The parser of the receive path goes over the whole KEM field. -/
theorem skipKem_eq {buf : Mem} (hver : 3 ≤ read16 buf 2) :
    skipKem buf 73 = 73 + kemFieldLen buf := by
  rw [kemFieldLen, if_neg (by omega), skipKem]
  by_cases hnothing : buf 73 = 0x30
  · rw [if_pos hnothing, if_pos (by rw [hnothing]; decide)]
  rw [if_neg hnothing]
  by_cases hjust : buf 73 = 0x31
  · rw [if_pos hjust, if_neg (not_not_intro hjust)]
    simp only [Nat.reduceAdd]
    split_ifs <;> omega
  · rw [if_neg hjust, if_pos hjust]

/-- Before the counters it reads nothing behind the field. -/
theorem skipKemLogged_below {buf : Mem} {bound : ℕ} (hver : 3 ≤ read16 buf 2)
    (h : 73 + kemFieldLen buf ≤ bound) : (skipKemLogged buf 73).Below bound := by
  rw [kemFieldLen, if_neg (by omega)] at h
  simp only [skipKemLogged, all_bind, ↓all_ite, all_pure, below_byteAt, below_read16At,
    val_byteAt, val_read16At]
  split_ifs at h ⊢ <;> simp_all <;> omega

/-- The parser of the receive path reads up to the end of the counters, or stops at a key of
another length. -/
theorem ratchetParseMsgHeaderLogged_below (buf : Mem) (bound : ℕ) :
    (ratchetParseMsgHeaderLogged buf).Below bound ↔
      5 ≤ bound ∧ (buf 4 = 68 → fieldsEnd buf ≤ bound) := by
  have hoff : (countersOffsetLogged buf (read16 buf 2)).val = 73 + kemFieldLen buf := by
    rw [countersOffsetLogged_val]
    split_ifs with hver
    · exact skipKem_eq hver
    · rw [kemFieldLen, if_pos (by omega)]
  have hskip : 73 + kemFieldLen buf ≤ bound →
      (countersOffsetLogged buf (read16 buf 2)).Below bound := by
    intro h
    rw [countersOffsetLogged]
    split_ifs with hver
    · exact skipKemLogged_below hver h
    · exact all_pure _
  simp only [ratchetParseMsgHeaderLogged, all_bind, ↓all_ite, all_pure, below_byteAt,
    below_read16At, below_read32At, below_windowBytesAt, val_byteAt, val_read16At, hoff, fieldsEnd]
  constructor
  · rintro ⟨hfirst, -, hrest⟩
    refine ⟨hfirst, fun hkey => ?_⟩
    obtain ⟨-, -, -, -, hns, -⟩ := hrest (not_not_intro hkey)
    omega
  · rintro ⟨hfirst, hend⟩
    refine ⟨hfirst, fun _ => trivial, fun hkey => ?_⟩
    have hfields := hend (not_not.1 hkey)
    exact ⟨.inr (by omega), by omega, hskip (by omega), by omega, by omega, trivial⟩

/-- `pq_header_deserialize` reads no further than the KEM field, also where it refuses it. -/
theorem deserializeKemLogged_below {buf : Mem} {bound : ℕ} (hver : 3 ≤ read16 buf 2)
    (h : 73 + kemFieldLen buf ≤ bound) : (deserializeKemLogged buf 73).Below bound := by
  rw [kemFieldLen, if_neg (by omega)] at h
  simp only [deserializeKemLogged, all_bind, ↓all_ite, all_pure, below_byteAt, below_read16At,
    below_windowBytesAt, val_byteAt, val_read16At, Nat.reduceAdd]
  have hfirst : 74 ≤ bound := by
    split_ifs at h <;> omega
  refine ⟨hfirst, fun _ => trivial, fun _ => ⟨fun hjust => ?_, fun _ => trivial⟩⟩
  rw [if_neg (not_not_intro hjust)] at h
  have hsecond : 75 ≤ bound := by
    split_ifs at h <;> omega
  refine ⟨hsecond, fun hproposed => ?_, fun hproposed => ⟨fun haccepted => ?_, fun _ => trivial⟩⟩
  · rw [if_pos hproposed] at h
    refine ⟨by omega, fun _ => trivial, fun hpk => ⟨.inr ?_, trivial⟩⟩
    rw [not_not.1 hpk] at h
    omega
  · rw [if_neg hproposed, if_pos haccepted] at h
    refine ⟨by omega, fun _ => trivial, fun hct => ?_⟩
    rw [not_not.1 hct] at h
    refine ⟨.inr (by omega), by omega, fun _ => trivial, fun hpk => ⟨.inr ?_, trivial⟩⟩
    rw [not_not.1 hpk] at h
    omega

/-- The counters lie behind the KEM field. -/
theorem counters_offset {buf : Mem} {kem : MsgKem} {p : ℕ}
    (h : (if 3 ≤ read16 buf 2 then deserializeKem buf 73 else .ok (.nothing, 73)) =
      .ok (kem, p)) : p = 73 + kemFieldLen buf := by
  split_ifs at h with hver
  · rw [← skipKem_eq hver, skipKem_of_deserializeKem h]
  · cases h
    rw [kemFieldLen, if_pos (by omega)]

/-- It reads up to the end of the counters, or stops before. -/
theorem pqHeaderDeserializeLogged_below {buf : Mem} {bound : ℕ} (bufLen : ℕ) (hmin : 5 ≤ bound)
    (h : buf 4 = 68 → fieldsEnd buf ≤ bound) :
    (pqHeaderDeserializeLogged buf bufLen).Below bound := by
  simp only [pqHeaderDeserializeLogged, all_bind, ↓all_ite, all_pure, below_byteAt,
    below_read16At, below_windowBytesAt, val_byteAt, val_read16At, kemFieldLogged_val]
  refine ⟨fun _ => trivial, fun _ => ⟨by omega, fun _ => trivial, fun _ => ⟨by omega, by omega,
    fun _ => trivial, fun hkey => ?_⟩⟩⟩
  have hend : 81 + kemFieldLen buf ≤ bound := h (not_not.1 hkey)
  have hkem : (kemFieldLogged buf (read16 buf 2)).Below bound := by
    rw [kemFieldLogged]
    split_ifs with hver
    · exact deserializeKemLogged_below hver (by omega)
    · exact all_pure _
  refine ⟨.inr (by omega), hkem, ?_⟩
  cases hfield : (if 3 ≤ read16 buf 2 then deserializeKem buf 73 else .ok (.nothing, 73)) with
  | error e => exact all_pure _
  | ok field =>
    obtain ⟨kem, p⟩ := field
    have hp := counters_offset hfield
    simp only [all_bind, below_read32At, all_pure]
    exact ⟨by omega, by omega, trivial⟩

/-- The header parsers stay inside a buffer of a length: they read nothing behind it, and what
they accept lies in the content that the header declares. -/
structure HeaderParsersInside (buf : Mem) (len : ℕ) : Prop where
  parse : (ratchetParseMsgHeaderLogged buf).Below len
  parseContent : (ratchetParseMsgHeaderLogged buf).val.isSome →
    (ratchetParseMsgHeaderLogged buf).Below (read16 buf 0 + 2)
  deserialize : (pqHeaderDeserializeLogged buf len).Below len
  deserializeContent : (pqHeaderDeserializeLogged buf len).val.isOk →
    (pqHeaderDeserializeLogged buf len).Below (read16 buf 0 + 2)

/-- There is a length byte for the DH key, and if it is the right one, the fields end inside the
buffer and inside the declared content. -/
def HeaderFits (buf : Mem) (len : ℕ) : Prop :=
  5 ≤ len ∧ (buf 4 = 68 → fieldsEnd buf ≤ len ∧ fieldsEnd buf ≤ read16 buf 0 + 2)

/-- The header parsers stay inside a buffer exactly when the header fits it. -/
theorem headerParsersInside_iff (buf : Mem) (len : ℕ) :
    HeaderParsersInside buf len ↔ HeaderFits buf len := by
  constructor
  · intro h
    obtain ⟨hmin, hlen⟩ := (ratchetParseMsgHeaderLogged_below buf len).1 h.parse
    refine ⟨hmin, fun hkey => ⟨hlen hkey, ?_⟩⟩
    have hsome : (ratchetParseMsgHeaderLogged buf).val.isSome := by
      rw [ratchetParseMsgHeaderLogged_val, ratchetParseMsgHeader, if_neg (not_not_intro hkey)]
      rfl
    exact ((ratchetParseMsgHeaderLogged_below buf _).1 (h.parseContent hsome)).2 hkey
  · rintro ⟨hmin, hfits⟩
    -- Fields inside the content leave room for the bytes that come before them.
    have hcontent : buf 4 = 68 → 5 ≤ read16 buf 0 + 2 := by
      intro hkey
      have hend := (hfits hkey).2
      rw [fieldsEnd] at hend
      omega
    refine
      { parse := (ratchetParseMsgHeaderLogged_below buf len).2 ⟨hmin, fun hkey => (hfits hkey).1⟩
        parseContent := fun hsome => ?_
        deserialize := pqHeaderDeserializeLogged_below len hmin fun hkey => (hfits hkey).1
        deserializeContent := fun hok => ?_ }
    · have hkey : buf 4 = 68 := by
        by_contra hkey
        rw [ratchetParseMsgHeaderLogged_val, ratchetParseMsgHeader, if_pos hkey] at hsome
        cases hsome
      exact (ratchetParseMsgHeaderLogged_below buf _).2 ⟨hcontent hkey, fun hkey => (hfits hkey).2⟩
    · rw [pqHeaderDeserializeLogged_val] at hok
      cases hheader : pqHeaderDeserialize buf len with
      | error e =>
        rw [hheader] at hok
        cases hok
      | ok header =>
        have hkey := (pqHeaderDeserialize_ok hheader).2.2.1
        exact pqHeaderDeserializeLogged_below len (hcontent hkey) fun hkey => (hfits hkey).2

/-- A header of 88 bytes whose KEM field claims a key of 65535 bytes. -/
def overlongKemHeader : Mem :=
  memOf ([0, 80, 0, 3, 68] ++ (List.replicate 68 0 ++ [0x31, 0x50, 0xFF, 0xFF])) fun _ => 0x23

/-- The parser of the receive path takes the counters from far behind it. -/
theorem overlongKemHeader_leaves_buffer : ¬ HeaderParsersInside overlongKemHeader 88 := by
  intro h
  have hfits := ((ratchetParseMsgHeaderLogged_below overlongKemHeader 88).1 h.parse).2 (by decide)
  revert hfits
  decide

end SimpleGo
