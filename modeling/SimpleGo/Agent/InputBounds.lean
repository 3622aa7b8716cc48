import Mathlib.Data.Int.Notation
import SimpleGo.Agent.Receive
import SimpleGo.Crypto.Symbolic
import SimpleGo.Lib.Logged

/-!
# What the agent reads of a plaintext

`smp_agent_process_message` gets a decrypted plaintext with its length and goes into it by the
lengths the message declares: the original length, the length of the key of a confirmation, the
length of the encrypted header and that of its ciphertext. Here the functions on that path are
written with their reads of the plaintext logged. A read is marked when its offset, or its
length, comes from a declared length.
-/

namespace SimpleGo.AgentInput

open Lib Lib.Logged

variable {K : Type}

/-- A position of the plaintext that is read, and whether a declared length led there. -/
structure PlainRead where
  pos : ℕ
  declared : Bool

/-- Reads behind a pointer into the plaintext. -/
def readsOf {α : Type} (base : ℕ) (declared : Bool) (x : Logged ℕ α) : Logged PlainRead α :=
  x.mapLog fun pos => { pos := base + pos, declared }

/-- Where `client_msg` or `erm` points: the plaintext from there on, and whether the offsets
behind the pointer start at one that a declared length gave. -/
structure Pointer where
  plaintext : Mem
  base : ℕ
  declared : Bool

/-- The memory behind a pointer. -/
def Pointer.mem (p : Pointer) : Mem := fun i => p.plaintext (p.base + i)

/-! ### The functions, with their reads -/

/-- The length of the header ciphertext, as `ratchet_decrypt_message` and
`ratchet_header_try_decrypt` read it. -/
def ehBodyLenLogged (clientMsg : Mem) (emHeader : ℕ) : Logged ℕ ℕ := do
  let ehVersion ← read16At clientMsg emHeader
  if 3 ≤ ehVersion then read16At clientMsg (emHeader + 34)
  else
    let byte ← byteAt clientMsg (emHeader + 34)
    return byte.toNat

/-- `eh_body_offset` of a header version. -/
def bodyOffsetOf (ehVersion : ℕ) : ℕ := if 3 ≤ ehVersion then 36 else 35

/-- `ratchet_header_try_decrypt`. The second trial reads what the first has read. -/
def ratchetHeaderTryDecryptLogged (P : Primitives K) (st : RatchetState K) (p : Pointer)
    (emHeader : ℕ) : Logged PlainRead (Option (DecryptMode × List UInt8)) := do
  if !st.initialized then return none
  else
    let ehVersion ← readsOf p.base p.declared (read16At p.mem emHeader)
    let ehBodyLen ← readsOf p.base p.declared (ehBodyLenLogged p.mem emHeader)
    let ehIv ← readsOf p.base p.declared (windowBytesAt p.mem (emHeader + 2) 16)
    let ehTag ← readsOf p.base p.declared (windowBytesAt p.mem (emHeader + 18) 16)
    let ehBody ← readsOf p.base true
      (windowAt p.mem (emHeader + bodyOffsetOf ehVersion) ehBodyLen)
    match P.aesGcmDecrypt st.headerKeyRecv ehIv st.assocData.toList ehBody ehTag with
    | some headerPlain => return some (.same, headerPlain)
    | none =>
      match P.aesGcmDecrypt st.nextHeaderKeyRecv ehIv st.assocData.toList ehBody ehTag with
      | some headerPlain => return some (.advance, headerPlain)
      | none => return none

/-- The bounds checks before the body: whether its end is not inside the message, by the
message's own lengths. -/
def bodyRefused (m : ClientMessage) : Bool :=
  m.originalLen ≤ m.bodyOffset || m.originalLen < m.authOffset + 16

/-- The arguments of `ratchet_decrypt_body`. What is handed to it counts as read. -/
def bodyCallLogged (p : Pointer) (m : ClientMessage) (mode : DecryptMode) (peerDh : Bytes 56)
    (pn ns : UInt32) (junk : Mem) : Logged PlainRead BodyCall := do
  let emHeaderRaw ← readsOf p.base true (windowAt p.mem m.emHeader m.emHeaderLen)
  let emAuthTag ← readsOf p.base true (windowBytesAt p.mem m.authOffset 16)
  let emBody ← readsOf p.base true
    (windowAt p.mem m.bodyOffset (m.originalLen - m.bodyOffset))
  return { mode, peerNewPub := peerDh, msgPn := pn, msgNs := ns, emHeaderRaw, emAuthTag, emBody
           junk }

/-- `ratchet_decrypt_message`. -/
def ratchetDecryptMessageLogged (P : Primitives K) (idx : ℕ) (enabled : Bool)
    (draws : ReceiveDraws) (recvPq : Option ParsedMsgHeader) (st : RatchetState K) (p : Pointer)
    (originalLen ermOffset : ℕ) : Logged PlainRead (ReceiveOut K) := do
  let m : ClientMessage := { clientMsg := p.mem, originalLen, ermOffset }
  let _ ← readsOf p.base p.declared (read16At p.mem ermOffset)
  let ehBodyLen ← readsOf p.base p.declared (ehBodyLenLogged p.mem m.emHeader)
  if !draws.headerAlloc then return { body := none, state := st, recvPq, writes := [] }
  else
    match ← ratchetHeaderTryDecryptLogged P st p m.emHeader with
    | none => return { body := none, state := st, recvPq, writes := [] }
    | some (mode, opened) =>
      let headerPlain := memOf opened draws.headerJunk
      match ratchetParseMsgHeader headerPlain with
      | none => return { body := none, state := st, recvPq, writes := [] }
      | some (peerDh, pn, ns) =>
        let recvPq := (pqHeaderDeserialize headerPlain ehBodyLen).toOption
        if bodyRefused m || !draws.bodyAlloc then
          return { body := none, state := st, recvPq, writes := [] }
        else
          let call ← bodyCallLogged p m mode peerDh pn ns draws.bodyJunk
          return (ratchetDecryptBody P idx enabled draws.body recvPq st call).received

/-- What the agent keeps between messages, and the key it hands back for a KEY command. -/
structure AgentState (K : Type) where
  contactIdx : ℤ
  ratchet : RatchetState K
  recvPq : Option ParsedMsgHeader
  peerSenderAuthKey : Bytes 44
  hasPeerSenderAuth : Bool

/-- What a call leaves: its result, the state, the attempted writes of the ratchet, and a body
that is handed on to the tag dispatch or the chat parser. -/
structure AgentOut (K : Type) where
  result : Bool
  state : AgentState K
  writes : List (NvsWrite K)
  body : Option (List UInt8)

/-- A call that ends before a ratchet message. -/
def AgentOut.plain (result : Bool) (st : AgentState K) : AgentOut K :=
  { result, state := st, writes := [], body := none }

/-- A call that has been through the ratchet. -/
def AgentOut.ratcheted (result : Bool) (st : AgentState K) (out : ReceiveOut K) : AgentOut K :=
  { result
    state := { st with ratchet := out.state, recvPq := out.recvPq }
    writes := out.writes
    body := out.body }

section Process

variable (P : Primitives K) (idx : ℕ) (enabled : Bool) (draws : ReceiveDraws)
  (st : AgentState K) (plaintext : Mem)

/-- The key of a confirmation, if it has the length of one. -/
def takeAuthKey (keyLen : ℕ) : Logged PlainRead (Option (Bytes 44)) :=
  if keyLen = 44 then do
    let key ← readsOf 0 true (windowBytesAt plaintext 4 44)
    return some key
  else return none

/-- A key that is taken is kept. -/
def keepAuthKey : Option (Bytes 44) → AgentState K
  | some key => { st with peerSenderAuthKey := key, hasPeerSenderAuth := true }
  | none => st

/-- `handle_confirmation`. -/
def handleConfirmation (originalLen : ℕ) : Logged PlainRead (AgentOut K) := do
  let keyLenByte ← readsOf 0 false (byteAt plaintext 3)
  let keyLen := keyLenByte.toNat
  let authKey ← takeAuthKey plaintext keyLen
  let st := keepAuthKey st authKey
  let _ ← readsOf 0 true (read16At plaintext (4 + keyLen))
  let _ ← readsOf 0 true (byteAt plaintext (6 + keyLen))
  let _ ← readsOf 0 true (byteAt plaintext (7 + keyLen))
  let out ← ratchetDecryptMessageLogged P idx enabled draws st.recvPq st.ratchet
    { plaintext, base := 2, declared := true } originalLen (6 + keyLen)
  return .ratcheted true st out

/-- `handle_empty`. -/
def handleEmpty (originalLen : ℕ) : Logged PlainRead (AgentOut K) := do
  if originalLen < 4 then return .plain false st
  else
    let _ ← readsOf 0 false (read16At plaintext 3)
    let agentTag ← readsOf 0 false (byteAt plaintext 5)
    if agentTag = 0x48 then return .plain true st
    else if agentTag = 0x4D then
      if originalLen < 24 || !st.ratchet.initialized then return .plain false st
      else
        let out ← ratchetDecryptMessageLogged P idx enabled draws st.recvPq st.ratchet
          { plaintext, base := 6, declared := false } (originalLen - 4) 0
        return .ratcheted out.body.isSome st out
    else return .plain true st

/-- `s_agent_contact_idx`: the index of the contact, or 0 where the pointer is none of the
table. -/
def route (contact : Option ℤ) : AgentState K :=
  match contact with
  | none => st
  | some i => { st with contactIdx := if i < 0 ∨ 128 ≤ i then 0 else i }

/-- `smp_agent_process_message`. -/
def smpAgentProcessMessage (contact : Option ℤ) (plaintextLen : ℕ) :
    Logged PlainRead (AgentOut K) := do
  if plaintextLen < 3 then return .plain false st
  else
    let originalLen ← readsOf 0 false (read16At plaintext 0)
    let privTag ← readsOf 0 false (byteAt plaintext 2)
    if privTag = 0x4B then
      handleConfirmation P idx enabled draws (route st contact) plaintext originalLen
    else if privTag = 0x5F then
      handleEmpty P idx enabled draws (route st contact) plaintext originalLen
    else return .plain false (route st contact)

end Process

/-! ### The logged pipeline is the pipeline -/

/-- The log leaves the body length. -/
theorem ehBodyLenLogged_val (clientMsg : Mem) (emHeader : ℕ) :
    (ehBodyLenLogged clientMsg emHeader).val = ehBodyLen clientMsg emHeader := by
  simp only [ehBodyLenLogged, ehBodyLen, val_bind, ↓val_ite, val_read16At, val_byteAt, val_pure]
  rfl

/-- The body offset from the version that is read. -/
theorem bodyOffsetOf_read (clientMsg : Mem) (emHeader : ℕ) :
    bodyOffsetOf (read16 clientMsg emHeader) = ehBodyOffset clientMsg emHeader := rfl

/-- Reading behind a pointer gives what is read. -/
@[simp] theorem val_readsOf {α : Type} (base : ℕ) (declared : Bool) (x : Logged ℕ α) :
    (readsOf base declared x).val = x.val := rfl

/-- The log leaves the result of the header trial. -/
theorem ratchetHeaderTryDecryptLogged_val (P : Primitives K) (st : RatchetState K) (p : Pointer)
    (emHeader : ℕ) : (ratchetHeaderTryDecryptLogged P st p emHeader).val =
      ratchetHeaderTryDecrypt P st p.mem emHeader := by
  rw [ratchetHeaderTryDecryptLogged, ratchetHeaderTryDecrypt]
  cases st.initialized with
  | false => rfl
  | true =>
    simp only [Bool.not_true, Bool.false_eq_true, if_false, val_bind, val_readsOf, val_read16At,
      val_windowBytesAt, val_windowAt, ehBodyLenLogged_val, openHeader]
    rw [← bodyOffsetOf_read]
    -- the header is tried under the current key, then under the next one
    generalize P.aesGcmDecrypt st.headerKeyRecv _ _ _ _ = same
    generalize P.aesGcmDecrypt st.nextHeaderKeyRecv _ _ _ _ = advance
    cases same with
    | some headerPlain => rfl
    | none => cases advance <;> rfl

/-- The log leaves the result of the decryption. -/
theorem ratchetDecryptMessageLogged_val (P : Primitives K) (idx : ℕ) (enabled : Bool)
    (draws : ReceiveDraws) (recvPq : Option ParsedMsgHeader) (st : RatchetState K) (p : Pointer)
    (originalLen ermOffset : ℕ) :
    (ratchetDecryptMessageLogged P idx enabled draws recvPq st p originalLen ermOffset).val =
      ratchetDecryptMessage P idx enabled draws recvPq st
        { clientMsg := p.mem, originalLen, ermOffset } := by
  rw [ratchetDecryptMessageLogged, ratchetDecryptMessage]
  cases draws.headerAlloc with
  | false => rfl
  | true =>
    simp only [Bool.not_true, Bool.false_eq_true, if_false, val_bind, val_readsOf,
      ratchetHeaderTryDecryptLogged_val, ehBodyLenLogged_val]
    cases ratchetHeaderTryDecrypt P st p.mem _ with
    | none => rfl
    | some header =>
      obtain ⟨mode, opened⟩ := header
      dsimp only
      cases ratchetParseMsgHeader (memOf opened draws.headerJunk) with
      | none => rfl
      | some fields =>
        change _ = if (bodyRefused { clientMsg := p.mem, originalLen, ermOffset } ||
          !draws.bodyAlloc) = true then _ else _
        dsimp only
        split <;> rfl

/-! ### Where the reads end -/

/-- A read is inside a plaintext, if a declared length led to it. -/
def Inside (plaintextLen : ℕ) (e : PlainRead) : Prop := e.declared = true → e.pos < plaintextLen

section Reads

variable {α : Type} (len : ℕ)

/-- A read of some bytes behind a pointer. -/
theorem inside_reads (base p n : ℕ) (declared : Bool) (a : α) :
    (readsOf base declared (reads p n a)).All (Inside len) ↔
      (declared = true → n = 0 ∨ base + p + n ≤ len) := by
  rw [readsOf, all_mapLog]
  cases declared with
  | false => simp [All, Inside]
  | true =>
    have hshift : (Inside len ∘ fun pos => { pos := base + pos, declared := true : PlainRead }) =
        fun pos => pos < len - base := by
      funext pos
      simp only [Function.comp_apply, Inside, forall_const, eq_iff_iff]
      omega
    rw [hshift]
    refine (below_reads p n (len - base) a).trans ?_
    simp only [forall_const]
    omega

/-- A byte of the input lies inside it. -/
theorem inside_byteAt (m : Mem) (base p : ℕ) (declared : Bool) :
    (readsOf base declared (byteAt m p)).All (Inside len) ↔
      (declared = true → base + p + 1 ≤ len) := by
  rw [byteAt, inside_reads]
  simp

/-- Two bytes of the input. -/
theorem inside_read16At (m : Mem) (base p : ℕ) (declared : Bool) :
    (readsOf base declared (read16At m p)).All (Inside len) ↔
      (declared = true → base + p + 2 ≤ len) := by
  rw [read16At, inside_reads]
  simp

/-- A window of the input. -/
theorem inside_windowAt (m : Mem) (base p n : ℕ) (declared : Bool) :
    (readsOf base declared (windowAt m p n)).All (Inside len) ↔
      (declared = true → n = 0 ∨ base + p + n ≤ len) := inside_reads _ _ _ _ _ _

/-- A window of fixed size. -/
theorem inside_windowBytesAt (m : Mem) (base p n : ℕ) (declared : Bool) :
    (readsOf base declared (windowBytesAt m p n)).All (Inside len) ↔
      (declared = true → n = 0 ∨ base + p + n ≤ len) := inside_reads _ _ _ _ _ _

/-- The length of the header ciphertext is the last of the fields before it. -/
theorem inside_ehBodyLen (m : Mem) (base emHeader : ℕ) (declared : Bool) :
    (readsOf base declared (ehBodyLenLogged m emHeader)).All (Inside len) ↔
      (declared = true → base + emHeader + ehBodyOffset m emHeader ≤ len) := by
  have hversion := inside_read16At len m base emHeader declared
  have hword := inside_read16At len m base (emHeader + 34) declared
  have hbyte := inside_byteAt len m base (emHeader + 34) declared
  rw [readsOf, all_mapLog] at hversion hword hbyte ⊢
  rw [ehBodyLenLogged, all_bind, val_read16At, all_ite, hversion, hword, all_bind, hbyte,
    ehBodyOffset]
  cases declared with
  | false => simp
  | true =>
    simp only [forall_const, all_pure, and_true]
    split_ifs <;> omega

end Reads

section Pipeline

variable {P : Primitives K} {idx : ℕ} {enabled : Bool} {draws : ReceiveDraws}
  {recvPq : Option ParsedMsgHeader} {st : RatchetState K} {p : Pointer} {len : ℕ}

/-- The fields of the encrypted header lie inside the plaintext. -/
def FieldsInside (p : Pointer) (emHeader len : ℕ) : Prop :=
  p.declared = true → p.base + emHeader + ehBodyOffset p.mem emHeader ≤ len

/-- The ciphertext of the header lies inside the plaintext. -/
def HeaderBodyInside (p : Pointer) (emHeader len : ℕ) : Prop :=
  ehBodyLen p.mem emHeader = 0 ∨
    p.base + (emHeader + ehBodyOffset p.mem emHeader) + ehBodyLen p.mem emHeader ≤ len

/-- The body starts behind version, IV, tag and length. -/
theorem ehBodyOffset_ge (clientMsg : Mem) (emHeader : ℕ) : 35 ≤ ehBodyOffset clientMsg emHeader := by
  rw [ehBodyOffset]
  split_ifs <;> omega

/-- The trial decryption of an initialised ratchet reads the fields and the ciphertext. -/
theorem inside_ratchetHeaderTryDecrypt (emHeader : ℕ) :
    (ratchetHeaderTryDecryptLogged P st p emHeader).All (Inside len) ↔
      (st.initialized = true → FieldsInside p emHeader len ∧ HeaderBodyInside p emHeader len) := by
  have hoff := ehBodyOffset_ge p.mem emHeader
  rw [ratchetHeaderTryDecryptLogged]
  cases hinit : st.initialized with
  | false => simp
  | true =>
    simp only [Bool.not_true, Bool.false_eq_true, if_false, all_bind, inside_read16At,
      inside_ehBodyLen, inside_windowBytesAt, inside_windowAt, val_readsOf, val_read16At,
      val_windowBytesAt, val_windowAt, ehBodyLenLogged_val, bodyOffsetOf_read, forall_const]
    constructor
    · rintro ⟨-, hfields, -, -, hbody, -⟩
      exact ⟨hfields, hbody⟩
    · rintro ⟨hfields, hbody⟩
      refine ⟨fun hd => ?_, hfields, fun hd => .inr ?_, fun hd => .inr ?_, hbody, ?_⟩
      · have hend := hfields hd
        omega
      · have hend := hfields hd
        omega
      · have hend := hfields hd
        omega
      · split
        · exact all_pure _
        · split <;> exact all_pure _

/-- Handing on the body takes the whole message up to its end. -/
theorem inside_bodyCall {m : ClientMessage} (h : bodyRefused m = false) (mode : DecryptMode)
    (peerDh : Bytes 56) (pn ns : UInt32) (junk : Mem) :
    (bodyCallLogged p m mode peerDh pn ns junk).All (Inside len) ↔
      p.base + m.originalLen ≤ len := by
  rw [bodyRefused, Bool.or_eq_false_iff, decide_eq_false_iff_not, decide_eq_false_iff_not] at h
  rw [ClientMessage.bodyOffset, ClientMessage.authOffset] at h
  simp only [bodyCallLogged, all_bind, inside_windowAt, inside_windowBytesAt, all_pure, and_true,
    forall_const, ClientMessage.bodyOffset, ClientMessage.authOffset]
  omega

/-- The reads of the pipeline: the fields, then what is decrypted, then all the rest of the
message when it is handed on. -/
theorem inside_ratchetDecryptMessage {originalLen ermOffset : ℕ} :
    (ratchetDecryptMessageLogged P idx enabled draws recvPq st p originalLen ermOffset).All
        (Inside len) ↔
      FieldsInside p (ermOffset + 2) len ∧
      (draws.headerAlloc = true →
        (st.initialized = true → HeaderBodyInside p (ermOffset + 2) len) ∧
        ∀ mode opened fields,
          ratchetHeaderTryDecrypt P st p.mem (ermOffset + 2) = some (mode, opened) →
          ratchetParseMsgHeader (memOf opened draws.headerJunk) = some fields →
          bodyRefused { clientMsg := p.mem, originalLen, ermOffset } = false →
          draws.bodyAlloc = true → p.base + originalLen ≤ len) := by
  have hoff := ehBodyOffset_ge p.mem (ermOffset + 2)
  have hfirst : FieldsInside p (ermOffset + 2) len →
      p.declared = true → p.base + ermOffset + 2 ≤ len := by
    intro hfields hd
    have hend := hfields hd
    omega
  rw [ratchetDecryptMessageLogged]
  simp only [all_bind, inside_read16At, inside_ehBodyLen, val_readsOf, ehBodyLenLogged_val,
    ClientMessage.emHeader]
  refine ⟨fun ⟨_, hfields, hrest⟩ => ⟨hfields, fun halloc => ?_⟩,
    fun ⟨hfields, hrest⟩ => ⟨hfirst hfields, hfields, ?_⟩⟩
  · rw [halloc] at hrest
    simp only [Bool.not_true, Bool.false_eq_true, if_false, all_bind,
      inside_ratchetHeaderTryDecrypt, ratchetHeaderTryDecryptLogged_val] at hrest
    refine ⟨fun hinit => (hrest.1 hinit).2, ?_⟩
    intro mode opened fields htry hparse hbody hbodyAlloc
    have hread := hrest.2
    rw [htry] at hread
    dsimp only at hread
    rw [hparse] at hread
    dsimp only at hread
    rw [hbody, hbodyAlloc, if_neg (by decide), all_bind] at hread
    exact (inside_bodyCall hbody _ _ _ _ _).1 hread.1
  · cases halloc : draws.headerAlloc with
    | false => simp
    | true =>
      simp only [Bool.not_true, Bool.false_eq_true, if_false, all_bind,
        inside_ratchetHeaderTryDecrypt, ratchetHeaderTryDecryptLogged_val]
      obtain ⟨hbody, hlen⟩ := hrest halloc
      refine ⟨fun hinit => ⟨hfields, hbody hinit⟩, ?_⟩
      cases htry : ratchetHeaderTryDecrypt P st p.mem (ermOffset + 2) with
      | none => exact all_pure _
      | some header =>
        obtain ⟨mode, opened⟩ := header
        dsimp only
        cases hparse : ratchetParseMsgHeader (memOf opened draws.headerJunk) with
        | none => exact all_pure _
        | some fields =>
          dsimp only
          cases hrefused : bodyRefused { clientMsg := p.mem, originalLen, ermOffset } with
          | true => simp
          | false =>
            cases hbodyAlloc : draws.bodyAlloc with
            | false => simp
            | true =>
              simp only [Bool.not_true, Bool.or_self, Bool.false_eq_true, if_false, all_bind,
                all_pure, and_true]
              exact (inside_bodyCall hrefused _ _ _ _ _).2
                (hlen mode opened fields htry hparse hrefused hbodyAlloc)

/-- Whatever the header buffer holds behind the opened header, the message ends before its body
and leaves the pending KEM field as it was. -/
def RefusesQuietly (P : Primitives K) (st : RatchetState K) (recvPq : Option ParsedMsgHeader)
    (m : ClientMessage) : Prop :=
  ∀ junk mode opened fields,
    ratchetHeaderTryDecrypt P st m.clientMsg m.emHeader = some (mode, opened) →
    ratchetParseMsgHeader (memOf opened junk) = some fields →
    bodyRefused m = true ∧
      (pqHeaderDeserialize (memOf opened junk) (ehBodyLen m.clientMsg m.emHeader)).toOption = recvPq

/-- A message whose body is refused stores the KEM field of its header and nothing else. -/
theorem ratchetDecryptMessage_of_bodyRefused {m : ClientMessage} {mode : DecryptMode}
    {opened : List UInt8} {fields : Bytes 56 × UInt32 × UInt32} (halloc : draws.headerAlloc = true)
    (htry : ratchetHeaderTryDecrypt P st m.clientMsg m.emHeader = some (mode, opened))
    (hparse : ratchetParseMsgHeader (memOf opened draws.headerJunk) = some fields)
    (hrefused : bodyRefused m = true) :
    ratchetDecryptMessage P idx enabled draws recvPq st m =
      { body := none, state := st, writes := []
        recvPq := (pqHeaderDeserialize (memOf opened draws.headerJunk)
          (ehBodyLen m.clientMsg m.emHeader)).toOption } := by
  have hcheck : (decide (m.originalLen ≤ m.bodyOffset) ||
      decide (m.originalLen < m.authOffset + 16)) = true := hrefused
  rw [ratchetDecryptMessage, halloc, if_neg (by decide), htry]
  simp only [hparse, hcheck, Bool.true_or, if_true]

/-- A message that is refused quietly changes nothing. -/
theorem RefusesQuietly.unchanged {m : ClientMessage} (h : RefusesQuietly P st recvPq m) :
    ratchetDecryptMessage P idx enabled draws recvPq st m =
      { body := none, state := st, recvPq, writes := [] } := by
  cases halloc : draws.headerAlloc with
  | false => rw [ratchetDecryptMessage, halloc, if_pos (by decide)]
  | true =>
    cases htry : ratchetHeaderTryDecrypt P st m.clientMsg m.emHeader with
    | none => rw [ratchetDecryptMessage, halloc, if_neg (by decide), htry]
    | some header =>
      obtain ⟨mode, opened⟩ := header
      cases hparse : ratchetParseMsgHeader (memOf opened draws.headerJunk) with
      | none =>
        rw [ratchetDecryptMessage, halloc, if_neg (by decide), htry]
        simp only [hparse]
      | some fields =>
        obtain ⟨hrefused, hpq⟩ := h _ _ _ _ htry hparse
        rw [ratchetDecryptMessage_of_bodyRefused halloc htry hparse hrefused, hpq]

end Pipeline

/-! ### Lengths that fit -/

/-- `client_msg` of a confirmation: its ratchet message lies behind the key. -/
def confirmationPointer (plaintext : Mem) : Pointer := { plaintext, base := 2, declared := true }

/-- `erm` of a message, which is the ratchet message itself. -/
def messagePointer (plaintext : Mem) : Pointer := { plaintext, base := 6, declared := false }

/-- The ratchet message of a message. -/
def messageOf (plaintext : Mem) : ClientMessage where
  clientMsg := (messagePointer plaintext).mem
  originalLen := read16 plaintext 0 - 4
  ermOffset := 0

/-- The lengths in a ratchet message fit: that of the encrypted header and that of its
ciphertext. -/
def RatchetLengthsFit (p : Pointer) (ermOffset len : ℕ) : Prop :=
  p.base + (ermOffset + 2) + read16 p.mem ermOffset ≤ len ∧ HeaderBodyInside p (ermOffset + 2) len

/-- What the declared lengths of a plaintext span ends inside it. -/
structure LengthsFit (plaintext : Mem) (len : ℕ) : Prop where
  original : 2 + read16 plaintext 0 ≤ len
  confirmation : plaintext 2 = 0x4B →
    FieldsInside (confirmationPointer plaintext) (6 + (plaintext 3).toNat + 2) len ∧
      RatchetLengthsFit (confirmationPointer plaintext) (6 + (plaintext 3).toNat) len
  message : plaintext 2 = 0x5F → plaintext 5 = 0x4D → 24 ≤ read16 plaintext 0 →
    RatchetLengthsFit (messagePointer plaintext) 0 len

/-- The message is turned away before anything is stored: it has an unknown tag, it is too short
by its own original length, the ratchet is not initialised, or its header is opened by no key or
ends it quietly. The routing index is that of the contact already. -/
structure TurnedAway (P : Primitives K) (contact : Option ℤ) (st : AgentState K)
    (plaintext : Mem) (len : ℕ) : Prop where
  routed : route st contact = st
  tag : plaintext 2 ≠ 0x4B
  message : plaintext 2 = 0x5F → 4 ≤ read16 plaintext 0 → plaintext 5 = 0x4D ∧
    (24 ≤ read16 plaintext 0 → st.ratchet.initialized = true →
      HeaderBodyInside (messagePointer plaintext) 2 len ∧
        RefusesQuietly P st.ratchet st.recvPq (messageOf plaintext))

/-- Processing a plaintext is safe: no declared length leads a read out of it, and when the
declared lengths do not fit it is rejected with everything as it was. -/
structure AgentInputSafe (P : Primitives K) (idx : ℕ) (enabled : Bool) (contact : Option ℤ)
    (st : AgentState K) (plaintext : Mem) (len : ℕ) : Prop where
  inside : ∀ draws,
    (smpAgentProcessMessage P idx enabled draws st plaintext contact len).All (Inside len)
  rejected : ¬ LengthsFit plaintext len → ∀ draws,
    (smpAgentProcessMessage P idx enabled draws st plaintext contact len).val = .plain false st

section Safety

variable {P : Primitives K} {idx : ℕ} {enabled : Bool} {contact : Option ℤ} {st : AgentState K}
  {plaintext : Mem} {len : ℕ}

/-- Whatever the lengths, a confirmation is taken for processed. -/
theorem handleConfirmation_result (draws : ReceiveDraws) (originalLen : ℕ) :
    (handleConfirmation P idx enabled draws st plaintext originalLen).val.result = true := rfl

/-- A confirmation whose lengths fit is read inside the plaintext. -/
theorem inside_handleConfirmation (hfit : LengthsFit plaintext len) (htag : plaintext 2 = 0x4B)
    (draws : ReceiveDraws) :
    (handleConfirmation P idx enabled draws st plaintext (read16 plaintext 0)).All
      (Inside len) := by
  obtain ⟨hfields, -, hbody⟩ := hfit.confirmation htag
  have hend := hfields rfl
  have hoff := ehBodyOffset_ge (confirmationPointer plaintext).mem (6 + (plaintext 3).toNat + 2)
  have hbase : (confirmationPointer plaintext).base = 2 := rfl
  rw [handleConfirmation]
  simp only [all_bind, inside_byteAt, inside_read16At, val_readsOf, val_byteAt, all_pure, and_true]
  refine ⟨fun hno => absurd hno Bool.false_ne_true, ?_, fun _ => by omega, fun _ => by omega,
    fun _ => by omega, ?_⟩
  · rw [takeAuthKey, all_ite]
    refine ⟨fun hkey => ?_, fun _ => all_pure _⟩
    simp only [all_bind, inside_windowBytesAt, all_pure, and_true]
    omega
  · refine inside_ratchetDecryptMessage.2 ⟨hfields, fun _ => ⟨fun _ => hbody, ?_⟩⟩
    intro mode opened fields _ _ _ _
    exact hfit.original

/-- A message whose ratchet message is in bounds is read inside the plaintext. -/
theorem inside_handleEmpty {originalLen : ℕ} (draws : ReceiveDraws) :
    (handleEmpty P idx enabled draws st plaintext originalLen).All (Inside len) ↔
      (4 ≤ originalLen → plaintext 5 = 0x4D → 24 ≤ originalLen → st.ratchet.initialized = true →
        (ratchetDecryptMessageLogged P idx enabled draws st.recvPq st.ratchet
          (messagePointer plaintext) (originalLen - 4) 0).All (Inside len)) := by
  rw [handleEmpty]
  simp only [↓all_ite, all_bind, inside_byteAt, inside_read16At, val_readsOf, val_byteAt, all_pure,
    and_true, true_and, implies_true, Bool.false_eq_true, false_implies, Nat.not_lt]
  constructor
  · intro h hlen htag herm hinit
    refine (h hlen (by rw [htag]; decide)) htag ?_
    simp [hinit, herm]
  · intro h hlen _ htag hguard
    rw [Bool.or_eq_true, not_or, decide_eq_true_eq, Nat.not_lt] at hguard
    exact h hlen htag hguard.1 (by simpa using hguard.2)

/-- What a message leaves. -/
theorem handleEmpty_val (draws : ReceiveDraws) (originalLen : ℕ) :
    (handleEmpty P idx enabled draws st plaintext originalLen).val =
      if originalLen < 4 then .plain false st
      else if plaintext 5 = 0x48 then .plain true st
      else if plaintext 5 = 0x4D then
        if originalLen < 24 || !st.ratchet.initialized then .plain false st
        else
          let out := ratchetDecryptMessage P idx enabled draws st.recvPq st.ratchet
            { clientMsg := (messagePointer plaintext).mem, originalLen := originalLen - 4
              ermOffset := 0 }
          .ratcheted out.body.isSome st out
      else .plain true st := by
  rw [handleEmpty]
  simp only [↓val_ite, val_bind, val_readsOf, val_byteAt, val_pure,
    ratchetDecryptMessageLogged_val]
  rfl

/-- Draws with every allocation made, and something behind the opened header. -/
def allocDraws (junk : Mem) : ReceiveDraws where
  headerAlloc := true
  headerJunk := junk
  bodyAlloc := true
  bodyJunk := fun _ => 0
  body :=
    { kem := { precomputed := none, keygen := none, encCoins := none, decOk := false }
      dhSelf := none, aadAlloc := false }

/-- Draws in which nothing is allocated. -/
def noDraws : ReceiveDraws := { allocDraws (fun _ => 0) with headerAlloc := false }

/-- The reads of a plaintext that is long enough for a tag. -/
theorem inside_process (hlen : 3 ≤ len) (draws : ReceiveDraws) :
    (smpAgentProcessMessage P idx enabled draws st plaintext contact len).All (Inside len) ↔
      (plaintext 2 = 0x4B → (handleConfirmation P idx enabled draws (route st contact) plaintext
        (read16 plaintext 0)).All (Inside len)) ∧
      (plaintext 2 = 0x5F → (handleEmpty P idx enabled draws (route st contact) plaintext
        (read16 plaintext 0)).All (Inside len)) := by
  rw [smpAgentProcessMessage, if_neg (by omega)]
  simp only [↓all_ite, all_bind, inside_byteAt, inside_read16At, val_readsOf, val_byteAt,
    val_read16At, all_pure, and_true, true_and, Bool.false_eq_true, false_implies, implies_true]
  refine and_congr_right fun _ => ⟨fun h htag => ?_, fun h _ htag => h htag⟩
  exact h (by rw [htag]; decide) htag

/-- What such a plaintext leaves. -/
theorem process_val (hlen : 3 ≤ len) (draws : ReceiveDraws) :
    (smpAgentProcessMessage P idx enabled draws st plaintext contact len).val =
      if plaintext 2 = 0x4B then
        (handleConfirmation P idx enabled draws (route st contact) plaintext
          (read16 plaintext 0)).val
      else if plaintext 2 = 0x5F then
        (handleEmpty P idx enabled draws (route st contact) plaintext (read16 plaintext 0)).val
      else .plain false (route st contact) := by
  rw [smpAgentProcessMessage, if_neg (by omega)]
  simp only [↓val_ite, val_bind, val_readsOf, val_byteAt, val_read16At, val_pure]
  rfl

/-- Routing leaves the ratchet alone. -/
@[simp] theorem route_ratchet : (route st contact).ratchet = st.ratchet := by
  cases contact <;> rfl

@[simp] theorem route_recvPq : (route st contact).recvPq = st.recvPq := by
  cases contact <;> rfl

/-- Lengths that fit keep all reads inside. -/
theorem LengthsFit.safe (hlen : 3 ≤ len) (h : LengthsFit plaintext len) :
    AgentInputSafe P idx enabled contact st plaintext len where
  inside draws := by
    refine (inside_process hlen draws).2 ⟨fun htag => inside_handleConfirmation h htag draws,
      fun htag => (inside_handleEmpty draws).2 fun _ hmsg herm _ => ?_⟩
    refine inside_ratchetDecryptMessage.2 ⟨nofun, fun _ => ⟨fun _ => (h.message htag hmsg herm).2, ?_⟩⟩
    intro mode opened fields _ _ _ _
    have horiginal := h.original
    change 6 + (read16 plaintext 0 - 4) ≤ len
    omega
  rejected hnot := absurd h hnot

/-- A message that is turned away is read inside the plaintext and changes nothing. -/
theorem TurnedAway.safe (hlen : 3 ≤ len) (h : TurnedAway P contact st plaintext len) :
    AgentInputSafe P idx enabled contact st plaintext len where
  inside draws := by
    refine (inside_process hlen draws).2 ⟨fun htag => absurd htag h.tag, fun htag => ?_⟩
    refine (inside_handleEmpty draws).2 fun hmin hmsg herm hinit => ?_
    rw [route_ratchet] at hinit ⊢
    obtain ⟨hbody, hquiet⟩ := (h.message htag hmin).2 herm hinit
    refine inside_ratchetDecryptMessage.2 ⟨nofun, fun _ => ⟨fun _ => hbody, ?_⟩⟩
    intro mode opened fields htry hparse hrefused _
    have hends := (hquiet _ _ _ _ htry hparse).1
    rw [messageOf, hrefused] at hends
    cases hends
  rejected _ draws := by
    rw [process_val hlen, if_neg h.tag, h.routed]
    split_ifs with htag
    · rw [handleEmpty_val]
      split_ifs with hmin hhello hmsg hguard
      · rfl
      · have hmsg := (h.message htag (by omega)).1
        rw [hhello] at hmsg
        exact absurd hmsg (by decide)
      · rfl
      · rw [Bool.or_eq_true, not_or, decide_eq_true_eq, Nat.not_lt] at hguard
        have hquiet := ((h.message htag (by omega)).2 hguard.1 (by simpa using hguard.2)).2
        have hsame : ratchetDecryptMessage P idx enabled draws st.recvPq st.ratchet
            (messageOf plaintext) =
          { body := none, state := st.ratchet, recvPq := st.recvPq, writes := [] } :=
          hquiet.unchanged
        rw [messageOf] at hsame
        simp only [hsame]
        rfl
      · exact absurd (h.message htag (by omega)).1 hmsg
    · rfl

/-- A message that is processed safely without lengths that fit is turned away: the draws that
allocate everything show that its header is not stored. -/
theorem AgentInputSafe.message_turnedAway (hlen : 3 ≤ len)
    (h : AgentInputSafe P idx enabled contact st plaintext len)
    (hfit : ¬ LengthsFit plaintext len) (htag : plaintext 2 = 0x5F)
    (hmsg : plaintext 5 = 0x4D) (herm : 24 ≤ read16 plaintext 0)
    (hinit : st.ratchet.initialized = true) :
    HeaderBodyInside (messagePointer plaintext) 2 len ∧
      RefusesQuietly P st.ratchet st.recvPq (messageOf plaintext) := by
  have hreads : ∀ junk, (ratchetDecryptMessageLogged P idx enabled (allocDraws junk) st.recvPq
      st.ratchet (messagePointer plaintext) (read16 plaintext 0 - 4) 0).All (Inside len) := by
    intro junk
    have hempty := ((inside_process hlen _).1 (h.inside (allocDraws junk))).2 htag
    have hread := (inside_handleEmpty _).1 hempty (by omega) hmsg herm (by rwa [route_ratchet])
    rwa [route_ratchet, route_recvPq] at hread
  have hbody : HeaderBodyInside (messagePointer plaintext) 2 len :=
    ((inside_ratchetDecryptMessage.1 (hreads fun _ => 0)).2 rfl).1 hinit
  refine ⟨hbody, fun junk mode opened fields htry hparse => ?_⟩
  cases hrefused : bodyRefused (messageOf plaintext) with
  | true =>
    refine ⟨rfl, ?_⟩
    have hval := congrArg (fun out : AgentOut K => out.state.recvPq)
      (h.rejected hfit (allocDraws junk))
    rw [process_val hlen, if_neg (by rw [htag]; decide), if_pos htag, handleEmpty_val,
      if_neg (by omega), if_neg (by rw [hmsg]; decide), if_pos hmsg,
      if_neg (by simp [hinit, herm])] at hval
    have hout : ratchetDecryptMessage P idx enabled (allocDraws junk) st.recvPq st.ratchet
        (messageOf plaintext) = _ :=
      ratchetDecryptMessage_of_bodyRefused rfl htry hparse hrefused
    rw [messageOf] at hout
    simp only [route_ratchet, route_recvPq, hout] at hval
    exact hval
  | false =>
    have hend := ((inside_ratchetDecryptMessage.1 (hreads junk)).2 rfl).2 mode opened fields htry
      hparse hrefused rfl
    have hinside := hrefused
    rw [bodyRefused, Bool.or_eq_false_iff, decide_eq_false_iff_not, decide_eq_false_iff_not,
      ClientMessage.authOffset] at hinside
    refine absurd { original := ?_, confirmation := fun hconf => ?_, message := ?_ } hfit
    · change 6 + (read16 plaintext 0 - 4) ≤ len at hend
      omega
    · rw [htag] at hconf
      exact absurd hconf (by decide)
    · refine fun _ _ _ => ⟨?_, hbody⟩
      have hfits : 0 + 2 + read16 (messagePointer plaintext).mem 0 ≤ read16 plaintext 0 - 4 :=
        Nat.le_trans (Nat.le_add_right _ 16) (Nat.le_of_not_lt hinside.2)
      change 6 + (0 + 2) + read16 (messagePointer plaintext).mem 0 ≤ len
      change 6 + (read16 plaintext 0 - 4) ≤ len at hend
      omega

/-- A plaintext that is processed safely has lengths that fit, or is turned away. -/
theorem AgentInputSafe.fits_or_turnedAway (hlen : 3 ≤ len)
    (h : AgentInputSafe P idx enabled contact st plaintext len) :
    LengthsFit plaintext len ∨ TurnedAway P contact st plaintext len := by
  by_cases hfit : LengthsFit plaintext len
  · exact .inl hfit
  right
  have hval := h.rejected hfit
  have hconfirmation : plaintext 2 ≠ 0x4B := by
    intro htag
    have hresult := congrArg AgentOut.result (hval noDraws)
    rw [process_val hlen, if_pos htag, handleConfirmation_result] at hresult
    cases hresult
  refine { routed := ?_, tag := hconfirmation, message := fun htag hmin => ?_ }
  · have hstate := congrArg AgentOut.state (hval noDraws)
    rw [process_val hlen, if_neg hconfirmation] at hstate
    split_ifs at hstate with htag
    · rw [handleEmpty_val] at hstate
      split_ifs at hstate <;> exact hstate
    · exact hstate
  · have hresult := congrArg AgentOut.result (hval noDraws)
    rw [process_val hlen, if_neg hconfirmation, if_pos htag, handleEmpty_val,
      if_neg (by omega)] at hresult
    have hmsg : plaintext 5 = 0x4D := by
      by_contra hmsg
      rw [if_neg hmsg] at hresult
      split_ifs at hresult <;> cases hresult
    exact ⟨hmsg, fun herm hinit => h.message_turnedAway hlen hfit htag hmsg herm hinit⟩

/-- Processing a plaintext is safe exactly when there is no tag in it, when what its declared
lengths span ends inside it, or when it is turned away before anything is stored. -/
theorem agentInput_safe_iff (P : Primitives K) (idx : ℕ) (enabled : Bool) (contact : Option ℤ)
    (st : AgentState K) (plaintext : Mem) (len : ℕ) :
    AgentInputSafe P idx enabled contact st plaintext len ↔
      len < 3 ∨ LengthsFit plaintext len ∨ TurnedAway P contact st plaintext len := by
  rcases Nat.lt_or_ge len 3 with hshort | hlen
  · refine iff_of_true { inside := fun draws => ?_, rejected := fun _ draws => ?_ } (.inl hshort)
    · rw [smpAgentProcessMessage, if_pos hshort]
      exact all_pure _
    · rw [smpAgentProcessMessage, if_pos hshort]
      rfl
  · constructor
    · intro h
      exact .inr (h.fits_or_turnedAway hlen)
    · rintro (hshort | hfit | haway)
      · omega
      · exact hfit.safe hlen
      · exact haway.safe hlen

end Safety

/-- A confirmation of 100 bytes whose key claims 255. -/
def longKeyConfirmation : Mem := memOf [0x00, 0x62, 0x4B, 0xFF] fun _ => 0

/-- An agent that has received nothing yet. -/
def freshAgent : AgentState SymKey where
  contactIdx := 0
  ratchet := .zero symbolic
  recvPq := none
  peerSenderAuthKey := zeroBytes 44
  hasPeerSenderAuth := false

/-- Its version is read behind the end of the plaintext. -/
theorem longKeyConfirmation_leaves_input :
    ¬ AgentInputSafe symbolic 0 true (some 0) freshAgent longKeyConfirmation 100 := by
  intro h
  have hread := ((inside_process (by decide) noDraws).1 (h.inside noDraws)).1 rfl
  simp only [handleConfirmation, all_bind, inside_read16At, val_readsOf, val_byteAt] at hread
  have hversion := hread.2.2.1 trivial
  revert hversion
  decide

end SimpleGo.AgentInput
