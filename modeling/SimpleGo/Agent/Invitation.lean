import SimpleGo.Agent.Messages
import SimpleGo.Contacts.Records
import SimpleGo.Lib.Strings

/-!
# Parsing an invitation

An invitation that comes in a decrypted message is a URI, percent-encoded up to four times.
The parser looks for its parts by search and writes those it finds into the one global peer
queue, in place. Nothing is reset before, so a part that is missing, or does not fit, leaves
what an earlier invitation has written.
-/

namespace SimpleGo

open Lib

/-! ### Encodings -/

/-- The table of `base64url_decode`: both alphabets. -/
def base64Value (c : UInt8) : Option UInt8 :=
  if c = 0x2B ∨ c = 0x2D then some 62
  else if c = 0x2F ∨ c = 0x5F then some 63
  else if 0x30 ≤ c ∧ c ≤ 0x39 then some (c - 0x30 + 52)
  else if 0x41 ≤ c ∧ c ≤ 0x5A then some (c - 0x41)
  else if 0x61 ≤ c ∧ c ≤ 0x7A then some (c - 0x61 + 26)
  else none

/-- The loop of `base64url_decode`: a byte comes out whenever eight bits have come in, and a
character that is not in the table is skipped. -/
def base64Loop : List UInt8 → (accum : UInt32) → (bits : ℕ) → List UInt8
  | [], _, _ => []
  | c :: rest, accum, bits =>
    match base64Value c with
    | none => base64Loop rest accum bits
    | some val =>
      let accum := (accum <<< 6) ||| val.toUInt32
      if 8 ≤ bits + 6 then
        (accum >>> UInt32.ofNat (bits - 2)).toUInt8 :: base64Loop rest accum (bits - 2)
      else base64Loop rest accum (bits + 6)

/-- A string without its last characters of some kinds. -/
def trimEnd (chars s : List UInt8) : List UInt8 := (s.reverse.dropWhile (· ∈ chars)).reverse

/-- `base64url_decode`: the result, and the bytes it has written; `max` is not zero. -/
def base64urlDecode (input : List UInt8) (max : ℕ) : ℤ × List UInt8 :=
  let s := trimEnd [0x3D, 0x20, 0x0A] input
  if max < s.length * 3 / 4 then (-1, [])
  else
    let output := (base64Loop s 0 0).take max
    (output.length, output)

/-- The value of a hexadecimal digit, as `url_decode_inplace` computes it from any character. -/
def hexDigit (c : UInt8) : UInt8 := if 0x41 ≤ c then (c &&& 0xDF) - 0x41 + 10 else c - 0x30

/-- The loop of `url_decode_inplace`. -/
def urlDecode : List UInt8 → List UInt8
  | [] => []
  | [c] => [c]
  | [c, c'] => [c, c']
  | c :: hi :: lo :: rest =>
    if c = 0x25 then (hexDigit hi <<< 4 ||| hexDigit lo) :: urlDecode rest
    else c :: urlDecode (hi :: lo :: rest)

/-- One of the passes over the URI; a zero byte that comes out ends the string. -/
def decodePass (uri : List UInt8) : List UInt8 :=
  if 0x25 ∈ uri then (urlDecode uri).takeWhile (· ≠ 0) else uri

/-- `atoi`: blanks, a sign, digits; the value is kept in the range of an `int`. -/
def atoi (s : List UInt8) : ℤ :=
  let digits := s.dropWhile (· ∈ [0x20, 0x09, 0x0A, 0x0B, 0x0C, 0x0D])
  let value (t : List UInt8) : ℕ :=
    (t.takeWhile fun c => 0x30 ≤ c ∧ c ≤ 0x39).foldl (fun v c => v * 10 + (c - 0x30).toNat) 0
  match digits with
  | 0x2D :: t => max (-(value t : ℤ)) (-(2 ^ 31))
  | 0x2B :: t => min (value t : ℤ) (2 ^ 31 - 1)
  | t => min (value t : ℤ) (2 ^ 31 - 1)

/-! ### The parts of a URI -/

/-- `simplex:`. -/
def simplexScheme : List UInt8 := [0x73, 0x69, 0x6D, 0x70, 0x6C, 0x65, 0x78, 0x3A]

/-- `smp://`. -/
def smpScheme : List UInt8 := [0x73, 0x6D, 0x70, 0x3A, 0x2F, 0x2F]

/-- `dh=`. -/
def dhParam : List UInt8 := [0x64, 0x68, 0x3D]

/-- `x3dh=`. -/
def x3dhParam : List UInt8 := [0x78, 0x33, 0x64, 0x68, 0x3D]

/-- `extract_full_invitation_uri`: the printable characters from a `simplex:` on, if they are
more than 50 and the copy can be allocated. -/
def extractFullInvitationUri (alloc : Bool) : List UInt8 → Option (List UInt8)
  | [] => none
  | c :: rest =>
    let uri := (c :: rest).takeWhile fun b => 32 ≤ b ∧ b < 127
    if 20 < (c :: rest).length ∧ simplexScheme.isPrefixOf (c :: rest) ∧ 50 < uri.length ∧
        uri.length < 16384 ∧ alloc then some uri
    else extractFullInvitationUri alloc rest

/-- The URI behind its first `smp://`. -/
def smpAddress (uri : List UInt8) : Option (List UInt8) := findBehind smpScheme uri

/-- The fingerprint: what stands before the `@`, of 1 to 47 characters. -/
def fingerprintText (uri : List UInt8) : Option (List UInt8) :=
  (smpAddress uri).bind fun a =>
    let fp := beforeChars [0x40] a
    if 0x40 ∈ a ∧ 0 < fp.length ∧ fp.length < 48 then some fp else none

/-- What stands behind the `@`, if there is a slash in it. -/
def serverText (uri : List UInt8) : Option (List UInt8) :=
  ((smpAddress uri).bind (behindChar 0x40)).filter (0x2F ∈ ·)

/-- The host and port, of 1 to 62 characters. -/
def hostText (uri : List UInt8) : Option (List UInt8) :=
  ((serverText uri).map (beforeChars [0x2F])).filter fun h => 0 < h.length ∧ h.length < 63

/-- The queue id, of 1 to 47 characters: it ends at a `#` or a question mark. -/
def queueIdText (uri : List UInt8) : Option (List UInt8) :=
  (((serverText uri).bind (behindChar 0x2F)).map (beforeChars [0x23, 0x3F])).filter
    fun q => 0 < q.length ∧ q.length < 48

/-- The first `dh=` behind the scheme, of 41 to 119 characters. -/
def dhText (uri : List UInt8) : Option (List UInt8) :=
  (((smpAddress uri).bind (findBehind dhParam)).map (beforeChars [0x26, 0x20, 0x23])).filter
    fun dh => 40 < dh.length ∧ dh.length < 120

/-- The DH key. The buffer for its text has 100 bytes: a longer text overruns it, and is read
on through the stack behind it. -/
def dhKey (stack uri : List UInt8) : Option (Bytes 32) :=
  (dhText uri).bind fun dh =>
    let dhB64 := if dh.length < 100 then dh else dh ++ stack.takeWhile (· ≠ 0)
    let spki := base64urlDecode dhB64 48
    if 44 ≤ spki.1 then some (bytesAt spki.2 12 32) else none

/-- A text of 1 to 149 characters that is the base64 form of an X448 key in SPKI form. -/
def x448Key (text : List UInt8) : Option (Bytes 56) :=
  if 0 < text.length ∧ text.length < 150 then
    let spki := base64urlDecode (trimEnd [0x20, 0x0A] text) 100
    let at_ (i : ℕ) : UInt8 := spki.2.getD i 0
    if 68 ≤ spki.1 ∧ at_ 0 = 0x30 ∧ at_ 2 = 0x30 ∧ at_ 4 = 0x06 ∧ at_ 5 = 0x03 ∧ at_ 6 = 0x2B ∧
        at_ 7 = 0x65 ∧ at_ 8 = 0x6F then some (bytesAt spki.2 12 56)
    else none
  else none

/-- The two texts of the `x3dh=` parameter. -/
def x3dhTexts (uri : List UInt8) : Option (List UInt8 × List UInt8) :=
  (findBehind x3dhParam uri).bind fun x3dh =>
    (behindChar 0x2C x3dh).map fun second =>
      (beforeChars [0x2C] x3dh, beforeChars [0x26, 0x20] second)

/-- The first E2E key. -/
def e2eKey1Of (uri : List UInt8) : Option (Bytes 56) := (x3dhTexts uri).bind fun t => x448Key t.1

/-- The second E2E key. -/
def e2eKey2Of (uri : List UInt8) : Option (Bytes 56) := (x3dhTexts uri).bind fun t => x448Key t.2

/-! ### The parser -/

namespace PeerQueue

/-- The fingerprint is decoded into the key hash, as far as it goes. -/
def setKeyHash (p : PeerQueue) (uri : List UInt8) : PeerQueue :=
  match fingerprintText uri with
  | none => p
  | some fp => { p with keyHash := overwrite p.keyHash (base64urlDecode fp 32).2 }

/-- The host, cut at a colon, and the port behind it. -/
def setHost (p : PeerQueue) (uri : List UInt8) : PeerQueue :=
  match hostText uri with
  | none => p
  | some h =>
    match behindChar 0x3A h with
    | none => { p with host := overwrite p.host (h ++ [0]), port := 5223 }
    | some portText =>
      { p with
        host := overwrite p.host (beforeChars [0x3A] h ++ 0 :: (portText ++ [0]))
        port := atoi portText }

/-- The queue id and its length, which is the result of the decoding. -/
def setQueueId (p : PeerQueue) (uri : List UInt8) : PeerQueue :=
  match queueIdText uri with
  | none => p
  | some q =>
    { p with
      queueIdLen := (base64urlDecode q 32).1
      queueId := overwrite p.queueId (base64urlDecode q 32).2 }

/-- The DH key. -/
def setDh (p : PeerQueue) (stack uri : List UInt8) : PeerQueue :=
  match dhKey stack uri with
  | none => p
  | some key => { p with dhPublic := key, hasDh := 1 }

/-- `parse_e2e_params`. -/
def parseE2eParams (p : PeerQueue) (uri : List UInt8) : PeerQueue :=
  let p :=
    match e2eKey1Of uri with
    | none => p
    | some key => { p with e2eKey1 := key, hasE2e := 1 }
  match e2eKey2Of uri with
  | none => p
  | some key => { p with e2eKey2 := key }

/-- The peer queue is valid when it has a host and a queue id. -/
def setValid (p : PeerQueue) : PeerQueue :=
  { p with valid := if cString p.host ≠ [] ∧ 0 < p.queueIdLen then 1 else 0 }

/-- What the parser does with a decoded URI. -/
def parseUri (p : PeerQueue) (stack uri : List UInt8) : PeerQueue :=
  ((((p.setKeyHash uri).setHost uri).setQueueId uri).setDh stack uri |>.parseE2eParams uri).setValid

end PeerQueue

/-- What the environment decides: whether the URI can be copied, and what the stack holds. -/
structure ParseEnv where
  uriAlloc : Bool
  stack : List UInt8

/-- The decoded URI of a decrypted invitation. -/
def invitationUri (env : ParseEnv) (text : List UInt8) : Option (List UInt8) :=
  (extractFullInvitationUri env.uriAlloc text).map fun uri =>
    decodePass (decodePass (decodePass (decodePass uri)))

/-- What `parse_agent_message` does to `pending_peer` with the decrypted text of an
invitation. -/
def parseInvitation (env : ParseEnv) (text : List UInt8) (p : PeerQueue) : PeerQueue :=
  match invitationUri env text with
  | none => p
  | some uri => p.parseUri env.stack uri

/-! ### What a field becomes -/

/-- The array of the host after a text for it. -/
def hostArray (h : List UInt8) : List UInt8 :=
  match behindChar 0x3A h with
  | none => h ++ [0]
  | some portText => beforeChars [0x3A] h ++ 0 :: (portText ++ [0])

/-- The port in a text for the host. -/
def portOf (h : List UInt8) : ℤ :=
  match behindChar 0x3A h with
  | none => 5223
  | some portText => atoi portText

/-- The parser field by field: each is computed from the URI, or stays what it was. -/
theorem parseUri_eq (p : PeerQueue) (stack uri : List UInt8) :
    p.parseUri stack uri =
      { p with
        keyHash := (fingerprintText uri).elim p.keyHash fun fp =>
          overwrite p.keyHash (base64urlDecode fp 32).2
        host := (hostText uri).elim p.host fun h => overwrite p.host (hostArray h)
        port := (hostText uri).elim p.port portOf
        queueId := (queueIdText uri).elim p.queueId fun q =>
          overwrite p.queueId (base64urlDecode q 32).2
        queueIdLen := (queueIdText uri).elim p.queueIdLen fun q => (base64urlDecode q 32).1
        dhPublic := (dhKey stack uri).elim p.dhPublic id
        hasDh := (dhKey stack uri).elim p.hasDh fun _ => 1
        e2eKey1 := (e2eKey1Of uri).elim p.e2eKey1 id
        hasE2e := (e2eKey1Of uri).elim p.hasE2e fun _ => 1
        e2eKey2 := (e2eKey2Of uri).elim p.e2eKey2 id
        valid :=
          if cString ((hostText uri).elim p.host fun h => overwrite p.host (hostArray h)) ≠ [] ∧
              0 < ((queueIdText uri).elim p.queueIdLen fun q => (base64urlDecode q 32).1)
          then 1 else 0 } := by
  have hkey : ∀ p : PeerQueue, p.setKeyHash uri =
      { p with keyHash := (fingerprintText uri).elim p.keyHash fun fp =>
          overwrite p.keyHash (base64urlDecode fp 32).2 } := by
    intro p
    rw [PeerQueue.setKeyHash]
    cases fingerprintText uri <;> rfl
  have hhost : ∀ p : PeerQueue, p.setHost uri =
      { p with
        host := (hostText uri).elim p.host fun h => overwrite p.host (hostArray h)
        port := (hostText uri).elim p.port portOf } := by
    intro p
    rw [PeerQueue.setHost]
    cases hostText uri with
    | none => rfl
    | some h =>
      simp only [Option.elim_some, hostArray, portOf]
      cases behindChar 0x3A h <;> rfl
  have hqueue : ∀ p : PeerQueue, p.setQueueId uri =
      { p with
        queueId := (queueIdText uri).elim p.queueId fun q =>
          overwrite p.queueId (base64urlDecode q 32).2
        queueIdLen := (queueIdText uri).elim p.queueIdLen fun q => (base64urlDecode q 32).1 } := by
    intro p
    rw [PeerQueue.setQueueId]
    cases queueIdText uri <;> rfl
  have hdh : ∀ p : PeerQueue, p.setDh stack uri =
      { p with
        dhPublic := (dhKey stack uri).elim p.dhPublic id
        hasDh := (dhKey stack uri).elim p.hasDh fun _ => 1 } := by
    intro p
    rw [PeerQueue.setDh]
    cases dhKey stack uri <;> rfl
  have he2e : ∀ p : PeerQueue, p.parseE2eParams uri =
      { p with
        e2eKey1 := (e2eKey1Of uri).elim p.e2eKey1 id
        hasE2e := (e2eKey1Of uri).elim p.hasE2e fun _ => 1
        e2eKey2 := (e2eKey2Of uri).elim p.e2eKey2 id } := by
    intro p
    rw [PeerQueue.parseE2eParams]
    cases e2eKey1Of uri <;> cases e2eKey2Of uri <;> rfl
  rw [PeerQueue.parseUri, hkey, hhost, hqueue, hdh, he2e, PeerQueue.setValid]

/-! ### Independence of earlier invitations -/

/-- What there is to read of a peer queue: the strings up to their ends, the rest as it is. -/
structure PeerView where
  host : List UInt8
  port : ℤ
  queueId : List UInt8
  queueIdLen : ℤ
  keyHash : Bytes 32
  dhPublic : Bytes 32
  hasDh : ℤ
  e2eKey1 : Bytes 56
  e2eKey2 : Bytes 56
  hasE2e : ℤ
  valid : ℤ
  deriving DecidableEq

/-- The view of a peer queue. -/
def PeerQueue.view (p : PeerQueue) : PeerView where
  host := cString p.host
  port := p.port
  queueId := p.queueId.toList.take p.queueIdLen.toNat
  queueIdLen := p.queueIdLen
  keyHash := p.keyHash
  dhPublic := p.dhPublic
  hasDh := p.hasDh
  e2eKey1 := p.e2eKey1
  e2eKey2 := p.e2eKey2
  hasE2e := p.hasE2e
  valid := p.valid

/-- The URI has every part: a fingerprint of 32 bytes, a host, a queue id, a DH key and both
E2E keys. -/
structure SetsEveryField (stack uri : List UInt8) : Prop where
  keyHash : ∃ fp ∈ fingerprintText uri, (base64urlDecode fp 32).1 = 32
  host : (hostText uri).isSome = true
  queueId : (queueIdText uri).isSome = true
  dh : (dhKey stack uri).isSome = true
  e2eKey1 : (e2eKey1Of uri).isSome = true
  e2eKey2 : (e2eKey2Of uri).isSome = true

/-- What a decoding has written is as long as its result says. -/
theorem base64urlDecode_length (input : List UInt8) (max : ℕ) :
    (base64urlDecode input max).2.length = (base64urlDecode input max).1.toNat ∧
      (base64urlDecode input max).2.length ≤ max := by
  rw [base64urlDecode]
  dsimp only
  split_ifs
  · exact ⟨rfl, Nat.zero_le max⟩
  · exact ⟨by rw [Int.toNat_natCast], List.length_take_le _ _⟩

/-- A text for the host, with its zero byte, fits into the array. -/
theorem hostArray_length {uri h : List UInt8} (hh : hostText uri = some h) :
    (hostArray h).length ≤ 64 ∧ 0 ∈ hostArray h := by
  obtain ⟨-, hlen⟩ := Option.filter_eq_some_iff.1 hh
  have hlen := (of_decide_eq_true hlen).2
  rw [hostArray]
  cases hport : behindChar 0x3A h with
  | none => simp only [List.length_append, List.length_singleton]; exact ⟨by omega, by simp⟩
  | some portText =>
    refine ⟨?_, by simp⟩
    rw [behindChar] at hport
    split at hport
    · rename_i hcolon
      obtain rfl := Option.some.inj hport
      have hsplit : (h.takeWhile (· ≠ 0x3A)).length + (h.dropWhile (· ≠ 0x3A)).length =
          h.length := by
        rw [← List.length_append, List.takeWhile_append_dropWhile]
      have hpos : 0 < (h.dropWhile (· ≠ 0x3A)).length := by
        rw [List.length_pos_iff]
        intro hnil
        have hnot := List.dropWhile_eq_nil_iff.1 hnil 0x3A hcolon
        simp at hnot
      have hsame : beforeChars [0x3A] h = h.takeWhile (· ≠ 0x3A) := by
        rw [beforeChars]
        congr 1
        funext c
        simp
      rw [hsame]
      simp only [List.length_append, List.length_cons, List.length_drop, List.length_nil]
      omega
    · cases hport

/-- With every part there the parser leaves nothing of what was before. -/
theorem SetsEveryField.view_eq {stack uri : List UInt8} (h : SetsEveryField stack uri)
    (p p' : PeerQueue) : (p.parseUri stack uri).view = (p'.parseUri stack uri).view := by
  obtain ⟨⟨fp, hfp, hfull⟩, hhost, hqueue, hdh, hkey1, hkey2⟩ := h
  obtain ⟨host, hhost⟩ := Option.isSome_iff_exists.1 hhost
  obtain ⟨q, hqueue⟩ := Option.isSome_iff_exists.1 hqueue
  obtain ⟨dh, hdh⟩ := Option.isSome_iff_exists.1 hdh
  obtain ⟨key1, hkey1⟩ := Option.isSome_iff_exists.1 hkey1
  obtain ⟨key2, hkey2⟩ := Option.isSome_iff_exists.1 hkey2
  obtain ⟨hlen, hzero⟩ := hostArray_length hhost
  obtain ⟨hqlen, hqmax⟩ := base64urlDecode_length q 32
  have hkeyHash : overwrite p.keyHash (base64urlDecode fp 32).2 =
      overwrite p'.keyHash (base64urlDecode fp 32).2 := by
    refine overwrite_of_le _ _ (Nat.le_of_eq ?_)
    rw [(base64urlDecode_length fp 32).1, hfull]
    rfl
  have hqueueId : ∀ a : Bytes 32, (overwrite a (base64urlDecode q 32).2).toList.take
      (base64urlDecode q 32).1.toNat = (base64urlDecode q 32).2 := by
    intro a
    rw [← hqlen]
    exact overwrite_take a hqmax
  rw [Option.mem_def] at hfp
  rw [parseUri_eq, parseUri_eq]
  simp only [PeerQueue.view, hfp, hhost, hqueue, hdh, hkey1, hkey2, Option.elim_some,
    cString_overwrite _ hlen hzero, hqueueId, hkeyHash]

/-- A peer queue that differs from the one of zeros in every field. -/
def PeerQueue.ones : PeerQueue where
  host := Vector.replicate 64 1
  port := 1
  keyHash := Vector.replicate 32 1
  keyHashB64 := Vector.replicate 48 1
  queueId := Vector.replicate 32 1
  queueIdLen := 1
  dhPublic := Vector.replicate 32 1
  hasDh := 2
  e2eKey1 := Vector.replicate 56 1
  e2eKey2 := Vector.replicate 56 1
  hasE2e := 2
  valid := 2

/-- They differ in the key arrays. -/
theorem zero_ne_ones : PeerQueue.zero.keyHash ≠ PeerQueue.ones.keyHash ∧
    PeerQueue.zero.e2eKey2 ≠ PeerQueue.ones.e2eKey2 := by
  decide

/-- A URI that leaves the same behind whatever was before has every part. -/
theorem setsEveryField_of_view_eq {stack uri : List UInt8}
    (h : (PeerQueue.zero.parseUri stack uri).view = (PeerQueue.ones.parseUri stack uri).view) :
    SetsEveryField stack uri := by
  rw [parseUri_eq, parseUri_eq] at h
  have hkeyHash := congrArg PeerView.keyHash h
  have hport := congrArg PeerView.port h
  have hqueueIdLen := congrArg PeerView.queueIdLen h
  have hhasDh := congrArg PeerView.hasDh h
  have hhasE2e := congrArg PeerView.hasE2e h
  have he2eKey2 := congrArg PeerView.e2eKey2 h
  simp only [PeerQueue.view] at hkeyHash hport hqueueIdLen hhasDh hhasE2e he2eKey2
  refine ⟨?_, ?_, ?_, ?_, ?_, ?_⟩
  · cases hfp : fingerprintText uri with
    | none =>
      rw [hfp] at hkeyHash
      exact absurd hkeyHash zero_ne_ones.1
    | some fp =>
      obtain ⟨hlen, hmax⟩ := base64urlDecode_length fp 32
      refine ⟨fp, rfl, ?_⟩
      by_contra hshort
      have hlast : (base64urlDecode fp 32).2.length ≤ 31 := by omega
      rw [hfp] at hkeyHash
      have hbyte := congrArg (fun a : Bytes 32 => a[31]) hkeyHash
      simp only [Option.elim_some, overwrite_getElem_of_le _ (by decide : 31 < 32) hlast] at hbyte
      exact absurd hbyte (by decide)
  · cases hhost : hostText uri with
    | none =>
      rw [hhost] at hport
      exact absurd hport (by decide)
    | some _ => rfl
  · cases hqueue : queueIdText uri with
    | none =>
      rw [hqueue] at hqueueIdLen
      exact absurd hqueueIdLen (by decide)
    | some _ => rfl
  · cases hdh : dhKey stack uri with
    | none =>
      rw [hdh] at hhasDh
      exact absurd hhasDh (by decide)
    | some _ => rfl
  · cases hkey1 : e2eKey1Of uri with
    | none =>
      rw [hkey1] at hhasE2e
      exact absurd hhasE2e (by decide)
    | some _ => rfl
  · cases hkey2 : e2eKey2Of uri with
    | none =>
      rw [hkey2] at he2eKey2
      exact absurd he2eKey2 zero_ne_ones.2
    | some _ => rfl

/-- The parser leaves the same behind for any two peer queues exactly when the text holds a
URI with every part. -/
theorem invitation_independent_iff (env : ParseEnv) (text : List UInt8) :
    (∀ p p' : PeerQueue, (parseInvitation env text p).view = (parseInvitation env text p').view) ↔
      ∃ uri ∈ invitationUri env text, SetsEveryField env.stack uri := by
  constructor
  · intro h
    have hsame := h .zero .ones
    rw [parseInvitation, parseInvitation] at hsame
    cases huri : invitationUri env text with
    | none =>
      rw [huri] at hsame
      have hport : PeerQueue.zero.port = PeerQueue.ones.port := congrArg PeerView.port hsame
      exact absurd hport (by decide)
    | some uri =>
      rw [huri] at hsame
      exact ⟨uri, rfl, setsEveryField_of_view_eq hsame⟩
  · rintro ⟨uri, huri, hevery⟩ p p'
    rw [Option.mem_def] at huri
    rw [parseInvitation, parseInvitation, huri]
    exact hevery.view_eq p p'

/-- An invitation without a DH key: a fingerprint, a server and a queue id. -/
def invitationWithoutDh : List UInt8 :=
  simplexScheme ++ [0x2F, 0x23] ++ smpScheme ++ List.replicate 43 0x41 ++ [0x40, 0x73, 0x2E, 0x65] ++
    [0x2F] ++ List.replicate 32 0x42 ++ [0x23]

/-- It inherits the DH key of the invitation before. -/
theorem invitation_inherits_dh_key :
    ¬ ∀ p p' : PeerQueue, (parseInvitation ⟨true, []⟩ invitationWithoutDh p).view =
      (parseInvitation ⟨true, []⟩ invitationWithoutDh p').view := by
  intro h
  have hasDh : (parseInvitation ⟨true, []⟩ invitationWithoutDh .zero).view.hasDh =
      (parseInvitation ⟨true, []⟩ invitationWithoutDh .ones).view.hasDh :=
    congrArg PeerView.hasDh (h .zero .ones)
  revert hasDh
  decide

end SimpleGo
