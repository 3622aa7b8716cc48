import SimpleGo.Tasks.Transmissions

/-!
# Two parsers of one header

The network task parses a frame far enough to tell a `PONG` and passes on what is none; the App
Task parses it again and acts on it. Both step over the authorisation, the correlation id and
the entity id by the byte of length in front. The App Task copies the entity id, and later the
id of a `MSG`, into an array of 24 bytes, and goes on behind the bytes that it has copied.
-/

namespace SimpleGo

open Lib

/-- What a parser makes of a frame's header: the entity id, and where the command starts. -/
structure FrameHeader where
  entity : List UInt8
  commandAt : ℕ
  deriving DecidableEq

/-- What a parser makes of a `MSG`: the message id, and the range of the body. -/
structure MessageParts where
  msgId : List UInt8
  bodyAt : ℕ
  bodyLen : ℕ
  deriving DecidableEq

/-! ### The parsers -/

/-- The header in `network_task`. -/
def netHeader (resp : Mem) (contentLen : ℕ) : Option FrameHeader :=
  (if 3 ≤ contentLen then some 3 else none).bind fun p =>
    (skipField resp contentLen p).bind fun p =>
      (skipField resp contentLen p).bind fun entityAt =>
        (skipField resp contentLen entityAt).map fun p =>
          ⟨window resp (entityAt + 1) (resp entityAt).toNat, p⟩

/-- The header in `smp_app_run`. -/
def appHeader (resp : Mem) (contentLen : ℕ) : Option FrameHeader :=
  if contentLen < 4 then none
  else
    (skipField resp contentLen 3).bind fun p =>
      (skipField resp contentLen p).bind fun p =>
        if p ≥ contentLen then none
        else
          let entLen := (resp p).toNat
          if p + 1 + entLen > contentLen then none
          else
            let entLen := min entLen 24
            some ⟨window resp (p + 1) entLen, p + 1 + entLen⟩

/-- The test for `MSG ` at the command. -/
def IsMsgAt (resp : Mem) (contentLen p : ℕ) : Prop :=
  p + 3 < contentLen ∧ resp p = 0x4D ∧ resp (p + 1) = 0x53 ∧ resp (p + 2) = 0x47 ∧
    resp (p + 3) = 0x20

instance (resp : Mem) (contentLen p : ℕ) : Decidable (IsMsgAt resp contentLen p) :=
  inferInstanceAs (Decidable (_ ∧ _ ∧ _ ∧ _ ∧ _))

/-- The parse of a `MSG` in `smp_app_run`; `p` is where the command starts. -/
def appMessage (resp : Mem) (contentLen p : ℕ) : Option MessageParts :=
  if p + 4 ≥ contentLen then none
  else
    let msgIdLen := min (resp (p + 4)).toNat 24
    if p + 5 + msgIdLen > contentLen then none
    else
      some ⟨window resp (p + 5) msgIdLen, p + 5 + msgIdLen, contentLen - (p + 5 + msgIdLen)⟩

/-- The parse of a `MSG` by the rule for the fields of the header, which advances by the declared
length. -/
def declaredMessage (resp : Mem) (contentLen p : ℕ) : Option MessageParts :=
  (skipField resp contentLen (p + 4)).map fun bodyAt =>
    ⟨window resp (p + 5) (resp (p + 4)).toNat, bodyAt, contentLen - bodyAt⟩

/-- The network task tells a `PONG` by the command behind its header. -/
theorem frameIsPong_eq (block : Mem) (contentLen : ℕ) :
    frameIsPong block contentLen =
      match netHeader (fun i => block (2 + i)) contentLen with
      | none => false
      | some h => h.commandAt + 4 ≤ contentLen &&
          window (fun i => block (2 + i)) h.commandAt 4 == [0x50, 0x4F, 0x4E, 0x47] := by
  unfold frameIsPong netHeader
  generalize (if 3 ≤ contentLen then some 3 else none) = start
  cases start with
  | none => rfl
  | some p =>
    dsimp only [Option.bind_some]
    cases skipField (fun i => block (2 + i)) contentLen p with
    | none => rfl
    | some p =>
      dsimp only [Option.bind_some]
      cases skipField (fun i => block (2 + i)) contentLen p with
      | none => rfl
      | some p =>
        dsimp only [Option.bind_some]
        cases skipField (fun i => block (2 + i)) contentLen p <;> rfl

/-- The App Task dispatches the command behind its header. -/
theorem appDispatch_eq (frame : List UInt8) :
    appDispatch frame = (appHeader (memOf frame fun _ => 0) frame.length).bind fun h =>
      dispatchCommand (memOf frame fun _ => 0) frame.length h.commandAt h.entity := by
  unfold appDispatch appHeader
  dsimp only
  split
  · rfl
  · cases skipField (memOf frame fun _ => 0) frame.length 3 with
    | none => rfl
    | some p =>
      dsimp only [Option.bind_some]
      cases skipField (memOf frame fun _ => 0) frame.length p with
      | none => rfl
      | some p =>
        dsimp only [Option.bind_some]
        split
        · rfl
        · split <;> rfl

/-- A `MSG` is handled with the parts that the App Task finds. -/
theorem dispatchCommand_of_isMsgAt {resp : Mem} {contentLen p : ℕ} (entity : List UInt8)
    (h : IsMsgAt resp contentLen p) :
    dispatchCommand resp contentLen p entity = (appMessage resp contentLen p).map fun parts =>
      .msg entity parts.msgId (window resp parts.bodyAt parts.bodyLen) := by
  obtain ⟨hlen, h0, h1, h2, h3⟩ := h
  rw [dispatchCommand, if_neg (by simp [h0]), if_neg (by simp [h0]), if_pos ⟨hlen, h0, h1, h2, h3⟩,
    appMessage]
  dsimp only
  split
  · rfl
  · split <;> rfl

/-! ### The declared lengths -/

/-- Where a frame's entity id is, behind a count, two bytes of length, the authorisation and the
correlation id. -/
def entityOffset (frame : List UInt8) : ℕ :=
  let corrAt := 3 + 1 + (frame.getD 3 0).toNat
  corrAt + 1 + (frame.getD corrAt 0).toNat

/-- Where its command is. -/
def commandOffset (frame : List UInt8) : ℕ :=
  entityOffset frame + 1 + (frame.getD (entityOffset frame) 0).toNat

/-- The declared lengths are kept: a complete header has an entity id of at most 24 bytes, and
a `MSG` has an id of at most 24 bytes or ends before 24 bytes of it. -/
def LengthsKept (frame : List UInt8) : Prop :=
  commandOffset frame ≤ frame.length →
    (frame.getD (entityOffset frame) 0).toNat ≤ 24 ∧
      (IsMsgAt (memOf frame fun _ => 0) frame.length (commandOffset frame) →
        (frame.getD (commandOffset frame + 4) 0).toNat ≤ 24 ∨
          frame.length < commandOffset frame + 5 + 24)

/-- Both tasks find the same header or none, and the App Task takes a `MSG` apart by the declared
length. Each task has other bytes behind the frame. -/
def ParsersAgree (frame : List UInt8) (netRest appRest : Mem) : Prop :=
  appHeader (memOf frame appRest) frame.length = netHeader (memOf frame netRest) frame.length ∧
    ∀ h ∈ netHeader (memOf frame netRest) frame.length,
      IsMsgAt (memOf frame appRest) frame.length h.commandAt →
        appMessage (memOf frame appRest) frame.length h.commandAt =
          declaredMessage (memOf frame netRest) frame.length h.commandAt

/-- Inside the frame, memory is the frame. -/
theorem memOf_of_lt {frame : List UInt8} (rest : Mem) {i : ℕ} (hi : i < frame.length) :
    memOf frame rest i = frame.getD i 0 := by
  rw [memOf, List.getD_eq_getElem _ _ hi, List.getD_eq_getElem _ _ hi]

/-- So is a window. -/
theorem window_memOf {frame : List UInt8} (rest : Mem) {p n : ℕ} (h : p + n ≤ frame.length) :
    window (memOf frame rest) p n = (frame.drop p).take n := by
  apply List.ext_getElem
  · rw [window_length, List.length_take, List.length_drop]
    omega
  · intro i hi _
    rw [window_length] at hi
    simp only [window, List.getElem_map, List.getElem_range, List.getElem_take, List.getElem_drop]
    rw [memOf_of_lt rest (by omega), List.getD_eq_getElem]

/-- A field of a frame is stepped over when it ends in the frame. -/
theorem skipField_memOf (frame : List UInt8) (rest : Mem) (p : ℕ) :
    skipField (memOf frame rest) frame.length p =
      if p + 1 + (frame.getD p 0).toNat ≤ frame.length then some (p + 1 + (frame.getD p 0).toNat)
      else none := by
  rw [skipField]
  by_cases hp : p < frame.length
  · rw [if_pos hp, memOf_of_lt rest hp]
  · rw [if_neg hp, if_neg (by omega)]

/-- The entity id begins behind the two fields before it. -/
theorem entityOffset_eq (frame : List UInt8) :
    entityOffset frame = 3 + 1 + (frame.getD 3 0).toNat + 1 +
      (frame.getD (3 + 1 + (frame.getD 3 0).toNat) 0).toNat := rfl

/-- The command begins behind the entity id. -/
theorem commandOffset_eq (frame : List UInt8) :
    commandOffset frame = entityOffset frame + 1 + (frame.getD (entityOffset frame) 0).toNat := rfl

/-- What the network task finds. -/
theorem netHeader_memOf (frame : List UInt8) (rest : Mem) :
    netHeader (memOf frame rest) frame.length =
      if commandOffset frame ≤ frame.length then
        some ⟨(frame.drop (entityOffset frame + 1)).take (frame.getD (entityOffset frame) 0).toNat,
          commandOffset frame⟩
      else none := by
  have hentity := entityOffset_eq frame
  have hcommand := commandOffset_eq frame
  by_cases hcomplete : commandOffset frame ≤ frame.length
  · rw [if_pos hcomplete, netHeader, if_pos (by omega), Option.bind_some, skipField_memOf,
      if_pos (by omega), Option.bind_some, skipField_memOf, if_pos (by omega), Option.bind_some,
      ← hentity, skipField_memOf, ← hcommand, if_pos hcomplete, Option.map_some,
      memOf_of_lt rest (by omega), window_memOf rest (by omega)]
  · rw [if_neg hcomplete, Option.eq_none_iff_forall_ne_some]
    intro h hparsed
    simp only [netHeader, Option.bind_eq_some_iff, Option.map_eq_some_iff, skipField_memOf,
      Option.ite_none_right_eq_some, Option.some.injEq] at hparsed
    obtain ⟨_, ⟨-, rfl⟩, _, ⟨-, rfl⟩, _, ⟨-, rfl⟩, _, ⟨hend, -⟩, -⟩ := hparsed
    exact hcomplete hend

/-- What the App Task finds. -/
theorem appHeader_memOf (frame : List UInt8) (rest : Mem) :
    appHeader (memOf frame rest) frame.length =
      if commandOffset frame ≤ frame.length then
        some ⟨(frame.drop (entityOffset frame + 1)).take
            (min (frame.getD (entityOffset frame) 0).toNat 24),
          entityOffset frame + 1 + min (frame.getD (entityOffset frame) 0).toNat 24⟩
      else none := by
  have hentity := entityOffset_eq frame
  have hcommand := commandOffset_eq frame
  by_cases hcomplete : commandOffset frame ≤ frame.length
  · rw [if_pos hcomplete, appHeader, if_neg (by omega), skipField_memOf, if_pos (by omega),
      Option.bind_some, skipField_memOf, if_pos (by omega), Option.bind_some, ← hentity,
      if_neg (by omega)]
    dsimp only
    rw [memOf_of_lt rest (by omega), if_neg (by omega), window_memOf rest (by omega)]
  · rw [if_neg hcomplete, Option.eq_none_iff_forall_ne_some]
    intro h hparsed
    simp only [appHeader, Option.ite_none_left_eq_some, Option.bind_eq_some_iff, skipField_memOf,
      Option.ite_none_right_eq_some, Option.some.injEq] at hparsed
    obtain ⟨-, _, ⟨-, rfl⟩, _, ⟨-, rfl⟩, hlt, hend, -⟩ := hparsed
    rw [← hentity, memOf_of_lt rest (by omega)] at hend
    omega

/-- Whether a command is a `MSG` is decided inside the frame. -/
theorem isMsgAt_memOf (frame : List UInt8) (rest : Mem) (p : ℕ) :
    IsMsgAt (memOf frame rest) frame.length p ↔
      IsMsgAt (memOf frame fun _ => 0) frame.length p := by
  unfold IsMsgAt
  refine and_congr_right fun hp => ?_
  have hbyte : ∀ i < frame.length, memOf frame rest i = memOf frame (fun _ => 0) i := by
    intro i hi
    rw [memOf_of_lt rest hi, memOf_of_lt (fun _ => 0) hi]
  rw [hbyte p (by omega), hbyte (p + 1) (by omega), hbyte (p + 2) (by omega), hbyte (p + 3) hp]

/-- The two headers agree when the entity id fits the array. -/
theorem appHeader_eq_netHeader (frame : List UInt8) (netRest appRest : Mem) :
    appHeader (memOf frame appRest) frame.length = netHeader (memOf frame netRest) frame.length ↔
      (commandOffset frame ≤ frame.length → (frame.getD (entityOffset frame) 0).toNat ≤ 24) := by
  rw [appHeader_memOf, netHeader_memOf]
  by_cases hcomplete : commandOffset frame ≤ frame.length
  · rw [if_pos hcomplete, if_pos hcomplete]
    constructor
    · intro h _
      have hoffset := congrArg FrameHeader.commandAt (Option.some.inj h)
      simp only [commandOffset] at hoffset
      omega
    · intro h
      rw [Nat.min_eq_left (h hcomplete), commandOffset]
  · rw [if_neg hcomplete, if_neg hcomplete]
    exact iff_of_true rfl fun h => absurd h hcomplete

/-- The message id of a `MSG` is stepped over by its declared length when it fits the array, or
does not fit the frame either way. -/
theorem appMessage_eq_declaredMessage (frame : List UInt8) (netRest appRest : Mem) (p : ℕ) :
    appMessage (memOf frame appRest) frame.length p =
        declaredMessage (memOf frame netRest) frame.length p ↔
      (frame.getD (p + 4) 0).toNat ≤ 24 ∨ frame.length < p + 5 + 24 := by
  rw [appMessage, declaredMessage, skipField_memOf]
  by_cases hshort : p + 4 ≥ frame.length
  · rw [if_pos hshort, if_neg (by omega)]
    exact iff_of_true rfl (.inr (by omega))
  rw [if_neg hshort]
  dsimp only
  rw [memOf_of_lt appRest (by omega), memOf_of_lt netRest (by omega)]
  by_cases hfits : (frame.getD (p + 4) 0).toNat ≤ 24
  · rw [Nat.min_eq_left hfits]
    refine iff_of_true ?_ (.inl hfits)
    by_cases hend : p + 5 + (frame.getD (p + 4) 0).toNat ≤ frame.length
    · rw [if_neg (by omega), if_pos (by omega), Option.map_some, window_memOf appRest hend,
        window_memOf netRest hend]
    · rw [if_pos (by omega), if_neg (by omega), Option.map_none]
  · rw [Nat.min_eq_right (by omega)]
    by_cases hend : frame.length < p + 5 + 24
    · rw [if_pos hend, if_neg (by omega), Option.map_none]
      exact iff_of_true rfl (.inr hend)
    · rw [if_neg hend]
      refine iff_of_false (fun h => ?_) (by omega)
      obtain ⟨bodyAt, hbody, hparts⟩ := Option.map_eq_some_iff.mp h.symm
      obtain ⟨-, hbodyAt⟩ := Option.ite_none_right_eq_some.mp hbody
      obtain rfl := Option.some.inj hbodyAt
      have hoffset := congrArg MessageParts.bodyAt hparts
      dsimp only at hoffset
      omega

/-- The two tasks agree on a frame exactly when its declared lengths are kept. -/
theorem header_parsers_agree_iff (frame : List UInt8) (netRest appRest : Mem) :
    ParsersAgree frame netRest appRest ↔ LengthsKept frame := by
  rw [ParsersAgree, appHeader_eq_netHeader, netHeader_memOf, LengthsKept]
  by_cases hcomplete : commandOffset frame ≤ frame.length
  · simp only [hcomplete, forall_const, if_true, Option.mem_def, Option.some.injEq, forall_eq',
      appMessage_eq_declaredMessage, isMsgAt_memOf frame appRest]
  · simp only [hcomplete, false_imp_iff, if_false, Option.mem_def, reduceCtorEq, implies_true,
      and_self]

/-- A frame with an entity id of 26 bytes that ends in `OK`, and the command `END`. -/
def longEntityFrame : List UInt8 :=
  [1, 0, 0, 0, 0, 26] ++ List.replicate 24 7 ++ [0x4F, 0x4B, 0x45, 0x4E, 0x44]

/-- A `MSG` with a message id of 25 bytes. -/
def longMsgIdFrame : List UInt8 :=
  [1, 0, 0, 0, 0, 0, 0x4D, 0x53, 0x47, 0x20, 25] ++ List.replicate 25 7

/-- The App Task takes the end of the entity id for the command, and the end of the message id
for the body. -/
theorem header_parsers_disagree :
    ¬ ParsersAgree longEntityFrame (fun _ => 0) (fun _ => 0) ∧
      ¬ ParsersAgree longMsgIdFrame (fun _ => 0) (fun _ => 0) :=
  ⟨fun h => absurd h.1 (by decide), fun h => absurd (h.2 ⟨[], 6⟩ rfl (by decide)) (by decide)⟩

end SimpleGo
