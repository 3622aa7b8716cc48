import SimpleGo.Agent.Invitation
import SimpleGo.Lib.Logged

/-!
# Where an invitation is written to

The parser of an invitation copies parts of a URI into arrays of a fixed size, decodes them into
others, and keeps the result in the pending peer. Each copy has a limit of its own for the length.
Here the parser is written with its writes logged, and with the length of every string that it
then reads as one: a string has to end inside its array. All limits are those of their arrays but
one: the text of the DH key may have 119 characters, its array has 100.
-/

namespace SimpleGo.InvitationInput

open Lib Lib.Logged

/-- The arrays the parser writes to: its own, and those of `pending_peer`. -/
inductive Destination where
  | fpB64
  | keyHash
  | host
  | qidB64
  | queueId
  | dhB64
  | dhSpki
  | dhPublic
  | version
  | key1B64
  | key1Spki
  | e2eKey1
  | key2B64
  | key2Spki
  | e2eKey2
  deriving DecidableEq

/-- The sizes of the arrays. -/
def Destination.size : Destination → ℕ
  | fpB64 => 48
  | keyHash => 32
  | host => 64
  | qidB64 => 48
  | queueId => 32
  | dhB64 => 100
  | dhSpki => 48
  | dhPublic => 32
  | version => 20
  | key1B64 => 150
  | key1Spki => 100
  | e2eKey1 => 56
  | key2B64 => 150
  | key2Spki => 100
  | e2eKey2 => 56

/-- Bytes that are written to an array, or an array that is read as a string of a length. -/
inductive BufferUse where
  | write (dest : Destination) (pos len : ℕ)
  | string (dest : Destination) (len : ℕ)
  deriving DecidableEq

/-- What is written lies in its array, and a string has its zero byte there. -/
def InBounds : BufferUse → Prop
  | .write dest pos len => pos + len ≤ dest.size
  | .string dest len => len < dest.size

instance : DecidablePred InBounds
  | .write dest pos len => inferInstanceAs (Decidable (pos + len ≤ dest.size))
  | .string dest len => inferInstanceAs (Decidable (len < dest.size))

/-! ### The parser, with its writes -/

/-- The loop of `base64url_decode`; `j` bytes have been written, at most `max` are. -/
def base64LoopLogged (dest : Destination) (max : ℕ) :
    List UInt8 → (accum : UInt32) → (bits j : ℕ) → Logged BufferUse (List UInt8)
  | [], _, _, _ => return []
  | c :: rest, accum, bits, j =>
    match base64Value c with
    | none => base64LoopLogged dest max rest accum bits j
    | some val =>
      let accum := (accum <<< 6) ||| val.toUInt32
      if 8 ≤ bits + 6 then
        if j < max then do
          note [.write dest j 1]
          let output ← base64LoopLogged dest max rest accum (bits - 2) (j + 1)
          return (accum >>> UInt32.ofNat (bits - 2)).toUInt8 :: output
        else base64LoopLogged dest max rest accum (bits - 2) j
      else base64LoopLogged dest max rest accum (bits + 6) j

/-- `base64url_decode`. -/
def base64urlDecodeLogged (dest : Destination) (input : List UInt8) (max : ℕ) :
    Logged BufferUse (ℤ × List UInt8) := do
  let s := trimEnd [0x3D, 0x20, 0x0A] input
  if max < s.length * 3 / 4 then return (-1, [])
  else
    let output ← base64LoopLogged dest max s 0 0 0
    return (output.length, output)

/-- A text is copied into an array of zeros and read back as a string. -/
def copyText (dest : Destination) (text : List UInt8) : Logged BufferUse Unit :=
  note [.write dest 0 text.length, .string dest text.length]

/-- The fingerprint. -/
def setKeyHashLogged (uri : List UInt8) (p : PeerQueue) : Logged BufferUse PeerQueue :=
  match fingerprintText uri with
  | none => return p
  | some fp => do
    copyText .fpB64 fp
    let decoded ← base64urlDecodeLogged .keyHash fp 32
    return { p with keyHash := overwrite p.keyHash decoded.2 }

/-- The host and the port; the colon between them becomes a zero byte. -/
def setHostLogged (uri : List UInt8) (p : PeerQueue) : Logged BufferUse PeerQueue :=
  match hostText uri with
  | none => return p
  | some h => do
    note [.write .host 0 h.length, .write .host h.length 1, .string .host h.length]
    match behindChar 0x3A h with
    | none => return { p with host := overwrite p.host (h ++ [0]), port := 5223 }
    | some portText =>
      note [.write .host (beforeChars [0x3A] h).length 1]
      return { p with
        host := overwrite p.host (beforeChars [0x3A] h ++ 0 :: (portText ++ [0]))
        port := atoi portText }

/-- The queue id. -/
def setQueueIdLogged (uri : List UInt8) (p : PeerQueue) : Logged BufferUse PeerQueue :=
  match queueIdText uri with
  | none => return p
  | some q => do
    copyText .qidB64 q
    let decoded ← base64urlDecodeLogged .queueId q 32
    return { p with queueIdLen := decoded.1, queueId := overwrite p.queueId decoded.2 }

/-- The DH key; what is read behind a text that fills its array is the stack. -/
def setDhLogged (stack uri : List UInt8) (p : PeerQueue) : Logged BufferUse PeerQueue :=
  match dhText uri with
  | none => return p
  | some dh => do
    copyText .dhB64 dh
    let dhB64 := if dh.length < 100 then dh else dh ++ stack.takeWhile (· ≠ 0)
    let spki ← base64urlDecodeLogged .dhSpki dhB64 48
    if 44 ≤ spki.1 then
      note [.write .dhPublic 0 32]
      return { p with dhPublic := bytesAt spki.2 12 32, hasDh := 1 }
    else return p

/-- The part of a string from the first occurrence of a pattern on. -/
def strstr (pattern s : List UInt8) : Option (List UInt8) :=
  s.tails.find? fun tail => pattern.isPrefixOf tail

/-- The version behind `e2e=v=`, or else behind `&e2e=v` and the next `v=`. -/
def e2eVersionText (uri : List UInt8) : Option (List UInt8) :=
  ((strstr [0x65, 0x32, 0x65, 0x3D, 0x76, 0x3D] uri).or
    (strstr [0x26, 0x65, 0x32, 0x65, 0x3D, 0x76] uri)).bind fun e2eV =>
      (findBehind [0x76, 0x3D] e2eV).map (beforeChars [0x26, 0x20])

/-- The version, of which 19 characters are copied, one by one. -/
def copyVersion (uri : List UInt8) : Logged BufferUse Unit :=
  match e2eVersionText uri with
  | none => return ()
  | some version => note [.write .version 0 (min version.length 19),
      .string .version (min version.length 19)]

/-- The arrays of one of the two E2E keys. -/
structure KeyArrays where
  text : Destination
  spki : Destination
  key : Destination

/-- An X448 key: its text is copied, cut at its end and decoded. -/
def x448KeyLogged (arrays : KeyArrays) (text : List UInt8) :
    Logged BufferUse (Option (Bytes 56)) :=
  if 0 < text.length ∧ text.length < 150 then do
    copyText arrays.text text
    let trimmed := trimEnd [0x20, 0x0A] text
    note [.write arrays.text trimmed.length (text.length - trimmed.length)]
    let spki ← base64urlDecodeLogged arrays.spki trimmed 100
    let at_ (i : ℕ) : UInt8 := spki.2.getD i 0
    if 68 ≤ spki.1 ∧ at_ 0 = 0x30 ∧ at_ 2 = 0x30 ∧ at_ 4 = 0x06 ∧ at_ 5 = 0x03 ∧ at_ 6 = 0x2B ∧
        at_ 7 = 0x65 ∧ at_ 8 = 0x6F then
      note [.write arrays.key 0 56]
      return some (bytesAt spki.2 12 56)
    else return none
  else return none

/-- `parse_e2e_params`. -/
def parseE2eParamsLogged (uri : List UInt8) (p : PeerQueue) : Logged BufferUse PeerQueue := do
  copyVersion uri
  match x3dhTexts uri with
  | none => return p
  | some (text1, text2) =>
    let key1 ← x448KeyLogged ⟨.key1B64, .key1Spki, .e2eKey1⟩ text1
    let p := key1.elim p fun key => { p with e2eKey1 := key, hasE2e := 1 }
    let key2 ← x448KeyLogged ⟨.key2B64, .key2Spki, .e2eKey2⟩ text2
    return key2.elim p fun key => { p with e2eKey2 := key }

/-- What the parser does with a decoded URI. -/
def parseUriLogged (stack uri : List UInt8) (p : PeerQueue) : Logged BufferUse PeerQueue := do
  let p ← setKeyHashLogged uri p
  let p ← setHostLogged uri p
  let p ← setQueueIdLogged uri p
  let p ← setDhLogged stack uri p
  let p ← parseE2eParamsLogged uri p
  return p.setValid

/-- `parse_agent_message` from the decrypted text of an invitation on. -/
def parseInvitationLogged (env : ParseEnv) (text : List UInt8) (p : PeerQueue) :
    Logged BufferUse PeerQueue :=
  match invitationUri env text with
  | none => return p
  | some uri => parseUriLogged env.stack uri p

/-! ### The logged parser is the parser -/

/-- The loop gives the bytes it has room for. -/
theorem base64LoopLogged_val (dest : Destination) (max : ℕ) (s : List UInt8) (accum : UInt32)
    (bits j : ℕ) : (base64LoopLogged dest max s accum bits j).val =
      (base64Loop s accum bits).take (max - j) := by
  induction s generalizing accum bits j with
  | nil => rw [base64LoopLogged, base64Loop, List.take_nil, val_pure]
  | cons c rest ih =>
    rw [base64LoopLogged, base64Loop]
    cases base64Value c with
    | none => exact ih accum bits j
    | some val =>
      dsimp only
      rw [val_ite]
      by_cases hbits : 8 ≤ bits + 6
      · rw [if_pos hbits, if_pos hbits, val_ite]
        by_cases hj : j < max
        · obtain ⟨k, hk⟩ := Nat.exists_eq_succ_of_ne_zero (show max - j ≠ 0 by omega)
          rw [if_pos hj, hk, List.take_succ_cons, val_bind, val_bind, val_pure, ih,
            show max - (j + 1) = k by omega]
        · rw [if_neg hj, ih, show max - j = 0 by omega, List.take_zero, List.take_zero]
      · rw [if_neg hbits, if_neg hbits, ih]

/-- The log leaves the result of the decoder. -/
theorem base64urlDecodeLogged_val (dest : Destination) (input : List UInt8) (max : ℕ) :
    (base64urlDecodeLogged dest input max).val = base64urlDecode input max := by
  rw [base64urlDecodeLogged, base64urlDecode]
  dsimp only
  rw [val_ite]
  by_cases hlong : max < (trimEnd [0x3D, 0x20, 0x0A] input).length * 3 / 4
  · rw [if_pos hlong, if_pos hlong, val_pure]
  · rw [if_neg hlong, if_neg hlong, val_bind, base64LoopLogged_val, val_pure, Nat.sub_zero]

/-- The log leaves the key hash. -/
theorem setKeyHashLogged_val (uri : List UInt8) (p : PeerQueue) :
    (setKeyHashLogged uri p).val = p.setKeyHash uri := by
  rw [setKeyHashLogged, PeerQueue.setKeyHash]
  cases fingerprintText uri with
  | none => rfl
  | some fp => simp only [val_bind, base64urlDecodeLogged_val, val_pure]

/-- The log leaves host and port. -/
theorem setHostLogged_val (uri : List UInt8) (p : PeerQueue) :
    (setHostLogged uri p).val = p.setHost uri := by
  rw [setHostLogged, PeerQueue.setHost]
  cases hostText uri with
  | none => rfl
  | some h =>
    simp only [val_bind]
    cases behindChar 0x3A h <;> rfl

/-- The log leaves the queue id. -/
theorem setQueueIdLogged_val (uri : List UInt8) (p : PeerQueue) :
    (setQueueIdLogged uri p).val = p.setQueueId uri := by
  rw [setQueueIdLogged, PeerQueue.setQueueId]
  cases queueIdText uri with
  | none => rfl
  | some q => simp only [val_bind, base64urlDecodeLogged_val, val_pure]

/-- The log leaves the DH key. -/
theorem setDhLogged_val (stack uri : List UInt8) (p : PeerQueue) :
    (setDhLogged stack uri p).val = p.setDh stack uri := by
  rw [setDhLogged, PeerQueue.setDh, dhKey]
  cases dhText uri with
  | none => rfl
  | some dh =>
    simp only [val_bind, base64urlDecodeLogged_val, Option.bind_some]
    generalize base64urlDecode _ 48 = spki
    by_cases hspki : 44 ≤ spki.1
    · rw [if_pos hspki, if_pos hspki]
      rfl
    · rw [if_neg hspki, if_neg hspki]
      rfl

/-- The log leaves an X448 key. -/
theorem x448KeyLogged_val (arrays : KeyArrays) (text : List UInt8) :
    (x448KeyLogged arrays text).val = x448Key text := by
  rw [x448KeyLogged, x448Key, val_ite]
  by_cases hlen : 0 < text.length ∧ text.length < 150
  · rw [if_pos hlen, if_pos hlen]
    simp only [val_bind, base64urlDecodeLogged_val]
    rw [val_ite]
    rfl
  · rw [if_neg hlen, if_neg hlen]
    rfl

/-- The log leaves the E2E parameters. -/
theorem parseE2eParamsLogged_val (uri : List UInt8) (p : PeerQueue) :
    (parseE2eParamsLogged uri p).val = p.parseE2eParams uri := by
  rw [parseE2eParamsLogged, PeerQueue.parseE2eParams, e2eKey1Of, e2eKey2Of, val_bind]
  cases x3dhTexts uri with
  | none => rfl
  | some texts =>
    simp only [val_bind, x448KeyLogged_val, val_pure, Option.bind_some]
    cases x448Key texts.1 <;> cases x448Key texts.2 <;> rfl

/-- The writes aside, the logged parser is the parser. -/
theorem parseInvitationLogged_val (env : ParseEnv) (text : List UInt8) (p : PeerQueue) :
    (parseInvitationLogged env text p).val = parseInvitation env text p := by
  rw [parseInvitationLogged, parseInvitation]
  cases invitationUri env text with
  | none => rfl
  | some uri =>
    simp only [parseUriLogged, val_bind, val_pure, setKeyHashLogged_val, setHostLogged_val,
      setQueueIdLogged_val, setDhLogged_val, parseE2eParamsLogged_val, PeerQueue.parseUri]

/-! ### Bounds -/

/-- The decoding loop stops at its limit. -/
theorem base64LoopLogged_inBounds {dest : Destination} {max : ℕ} (hmax : max ≤ dest.size)
    (s : List UInt8) (accum : UInt32) (bits j : ℕ) :
    (base64LoopLogged dest max s accum bits j).All InBounds := by
  induction s generalizing accum bits j with
  | nil => exact all_pure _
  | cons c rest ih =>
    rw [base64LoopLogged]
    cases base64Value c with
    | none => exact ih accum bits j
    | some val =>
      dsimp only
      rw [all_ite, all_ite]
      refine ⟨fun _ => ⟨fun hj => ?_, fun _ => ih _ _ _⟩, fun _ => ih _ _ _⟩
      rw [all_bind, all_bind]
      refine ⟨?_, ih _ _ _, all_pure _⟩
      simp only [all_note, List.mem_singleton, forall_eq, InBounds]
      omega

/-- The decoder stays inside a destination of at least `max` bytes. -/
theorem base64urlDecodeLogged_inBounds {dest : Destination} {max : ℕ} (hmax : max ≤ dest.size)
    (input : List UInt8) : (base64urlDecodeLogged dest input max).All InBounds := by
  rw [base64urlDecodeLogged, all_ite, all_bind]
  exact ⟨fun _ => all_pure _, fun _ => ⟨base64LoopLogged_inBounds hmax _ _ _ _, all_pure _⟩⟩

/-- A text fits an array when its zero byte does. -/
theorem copyText_inBounds (dest : Destination) (text : List UInt8) :
    (copyText dest text).All InBounds ↔ text.length < dest.size := by
  simp only [copyText, all_note, List.mem_cons, List.not_mem_nil, or_false, forall_eq_or_imp,
    forall_eq, InBounds, Nat.zero_add]
  omega

/-- What stands before some characters is not longer. -/
theorem beforeChars_length_le (stops s : List UInt8) : (beforeChars stops s).length ≤ s.length :=
  (List.takeWhile_sublist _).length_le

/-- Trimming makes no text longer. -/
theorem trimEnd_length_le (chars s : List UInt8) : (trimEnd chars s).length ≤ s.length := by
  rw [trimEnd, List.length_reverse, ← s.length_reverse]
  exact (List.dropWhile_sublist _).length_le

/-- A fingerprint that is taken has less than 48 characters. -/
theorem fingerprintText_length {uri fp : List UInt8} (h : fingerprintText uri = some fp) :
    fp.length < 48 := by
  rw [fingerprintText, Option.bind_eq_some_iff] at h
  obtain ⟨a, -, h⟩ := h
  simp only [Option.ite_none_right_eq_some, Option.some.injEq] at h
  obtain ⟨⟨-, -, hlen⟩, rfl⟩ := h
  exact hlen

/-- A host that is taken has less than 63 characters. -/
theorem hostText_length {uri h : List UInt8} (hh : hostText uri = some h) : h.length < 63 :=
  (of_decide_eq_true (Option.filter_eq_some_iff.1 hh).2).2

/-- A queue id that is taken has less than 48 characters. -/
theorem queueIdText_length {uri q : List UInt8} (hq : queueIdText uri = some q) : q.length < 48 :=
  (of_decide_eq_true (Option.filter_eq_some_iff.1 hq).2).2

/-- The key hash is written inside its arrays. -/
theorem setKeyHashLogged_inBounds (uri : List UInt8) (p : PeerQueue) :
    (setKeyHashLogged uri p).All InBounds := by
  rw [setKeyHashLogged]
  cases hfp : fingerprintText uri with
  | none => exact all_pure _
  | some fp =>
    simp only [all_bind, all_pure, and_true, copyText_inBounds]
    exact ⟨fingerprintText_length hfp, base64urlDecodeLogged_inBounds (Nat.le_refl _) _⟩

/-- Host and port are written inside their arrays. -/
theorem setHostLogged_inBounds (uri : List UInt8) (p : PeerQueue) :
    (setHostLogged uri p).All InBounds := by
  rw [setHostLogged]
  cases hh : hostText uri with
  | none => exact all_pure _
  | some h =>
    have hlen := hostText_length hh
    have hbefore := beforeChars_length_le [0x3A] h
    rw [all_bind]
    constructor
    · simp only [all_note, List.mem_cons, List.not_mem_nil, or_false, forall_eq_or_imp, forall_eq,
        InBounds, Destination.size]
      omega
    · cases behindChar 0x3A h with
      | none => exact all_pure _
      | some portText =>
        simp only [all_bind, all_note, List.mem_singleton, forall_eq, InBounds, Destination.size,
          all_pure, and_true]
        omega

/-- The queue id is written inside its arrays. -/
theorem setQueueIdLogged_inBounds (uri : List UInt8) (p : PeerQueue) :
    (setQueueIdLogged uri p).All InBounds := by
  rw [setQueueIdLogged]
  cases hq : queueIdText uri with
  | none => exact all_pure _
  | some q =>
    simp only [all_bind, all_pure, and_true, copyText_inBounds]
    exact ⟨queueIdText_length hq, base64urlDecodeLogged_inBounds (Nat.le_refl _) _⟩

/-- The text of the DH key is the one whose limit is not that of its array. -/
theorem setDhLogged_inBounds (stack uri : List UInt8) (p : PeerQueue) :
    (setDhLogged stack uri p).All InBounds ↔ ∀ dh ∈ dhText uri, dh.length < 100 := by
  rw [setDhLogged]
  cases dhText uri with
  | none => simp only [all_pure, Option.not_mem_none, false_imp_iff, implies_true]
  | some dh =>
    simp only [all_bind, copyText_inBounds, Option.mem_some_iff, forall_eq', Destination.size]
    refine and_iff_left ⟨base64urlDecodeLogged_inBounds (Nat.le_refl _) _, ?_⟩
    rw [all_ite]
    refine ⟨fun _ => ?_, fun _ => all_pure _⟩
    simp only [all_bind, all_note, List.mem_singleton, forall_eq, InBounds, Destination.size,
      all_pure, and_true]
    decide

/-- The version is copied inside its array. -/
theorem copyVersion_inBounds (uri : List UInt8) : (copyVersion uri).All InBounds := by
  rw [copyVersion]
  cases e2eVersionText uri with
  | none => exact all_pure _
  | some version =>
    simp only [all_note, List.mem_cons, List.not_mem_nil, or_false, forall_eq_or_imp, forall_eq,
      InBounds, Destination.size]
    omega

/-- The arrays of a key have room for what is put there. -/
theorem x448KeyLogged_inBounds {arrays : KeyArrays} (htext : arrays.text.size = 150)
    (hspki : arrays.spki.size = 100) (hkey : arrays.key.size = 56) (text : List UInt8) :
    (x448KeyLogged arrays text).All InBounds := by
  rw [x448KeyLogged, all_ite]
  refine ⟨fun hlen => ?_, fun _ => all_pure _⟩
  have htrim := trimEnd_length_le [0x20, 0x0A] text
  rw [all_bind, all_bind, all_bind, all_ite, copyText_inBounds, htext]
  refine ⟨hlen.2, ?_, base64urlDecodeLogged_inBounds (Nat.le_of_eq hspki.symm) _, fun _ => ?_,
    fun _ => all_pure _⟩
  · simp only [all_note, List.mem_singleton, forall_eq, InBounds, htext]
    omega
  · simp only [all_bind, all_note, List.mem_singleton, forall_eq, InBounds, hkey, all_pure,
      and_true]
    decide

/-- The E2E parameters are written inside their arrays. -/
theorem parseE2eParamsLogged_inBounds (uri : List UInt8) (p : PeerQueue) :
    (parseE2eParamsLogged uri p).All InBounds := by
  rw [parseE2eParamsLogged, all_bind]
  refine ⟨copyVersion_inBounds uri, ?_⟩
  cases x3dhTexts uri with
  | none => exact all_pure _
  | some texts =>
    simp only [all_bind, all_pure, and_true]
    exact ⟨x448KeyLogged_inBounds rfl rfl rfl _, x448KeyLogged_inBounds rfl rfl rfl _⟩

/-- The parser stays in all its arrays, and ends every string in its array, exactly when the URI
has no DH parameter of 100 characters or more that it takes. -/
theorem invitation_writes_inside_iff (env : ParseEnv) (text : List UInt8) (p : PeerQueue) :
    (parseInvitationLogged env text p).All InBounds ↔
      ∀ uri ∈ invitationUri env text, ∀ dh ∈ dhText uri, dh.length < 100 := by
  rw [parseInvitationLogged]
  cases invitationUri env text with
  | none => simp only [all_pure, Option.not_mem_none, false_imp_iff, implies_true]
  | some uri =>
    simp only [parseUriLogged, all_bind, all_pure, and_true, setKeyHashLogged_inBounds,
      setHostLogged_inBounds, setQueueIdLogged_inBounds, setDhLogged_inBounds,
      parseE2eParamsLogged_inBounds, true_and, Option.mem_some_iff, forall_eq']

/-- An invitation whose DH parameter has 110 characters. -/
def invitationWithLongDh : List UInt8 :=
  simplexScheme ++ [0x2F, 0x23] ++ smpScheme ++ List.replicate 43 0x41 ++
    [0x40, 0x73, 0x2E, 0x65, 0x2F] ++ List.replicate 32 0x42 ++ [0x23, 0x3F] ++ dhParam ++
      List.replicate 110 0x43

set_option maxRecDepth 8192 in
/-- Its DH parameter is copied over the end of its array. -/
theorem invitation_long_dh_overruns :
    ¬ ∀ (env : ParseEnv) (text : List UInt8) (p : PeerQueue),
      (parseInvitationLogged env text p).All InBounds := by
  intro h
  have hwrite := h ⟨true, []⟩ invitationWithLongDh .zero (.write .dhB64 0 110) (by decide)
  exact absurd hwrite (by decide)

end SimpleGo.InvitationInput
