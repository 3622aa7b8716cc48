import SimpleGo.Lib.Strings
import SimpleGo.Net.Framing

/-!
# Transmissions in a block

A block of the server is a counted batch: a byte with the number of transmissions, and each
of them behind its length in two bytes. A transmission is an authorisation, a correlation id
and an entity id, each behind a byte of length, and then a command. The App Task parses a
frame from its fourth byte on, the network task has its own parsers; this module has the
format and what the App Task makes of a frame.
-/

namespace SimpleGo

open Lib

/-- What the command part of a transmission can be. -/
inductive ServerCommand where
  | ok
  | ended
  | pong
  | err (info : List UInt8)
  | ids (queue : List UInt8)
  | msg (msgId body : List UInt8)
  deriving DecidableEq

namespace ServerCommand

/-- The bytes of a command: `OK`, `END`, `PONG`, `ERR…`, `IDS …`, `MSG …`. -/
def encode : ServerCommand → List UInt8
  | .ok => [0x4F, 0x4B]
  | .ended => [0x45, 0x4E, 0x44]
  | .pong => [0x50, 0x4F, 0x4E, 0x47]
  | .err info => 0x45 :: 0x52 :: 0x52 :: info
  | .ids queue => 0x49 :: 0x44 :: 0x53 :: 0x20 :: queue
  | .msg msgId body => 0x4D :: 0x53 :: 0x47 :: 0x20 :: (shortString msgId ++ body)

/-- The command is a `MSG`. -/
def isMsg : ServerCommand → Bool
  | .msg _ _ => true
  | _ => false

/-- The message id of a `MSG` fits the App Task's buffer of 24 bytes. -/
def ShortMsgId : ServerCommand → Prop
  | .msg msgId _ => msgId.length ≤ 24
  | _ => True

instance : (command : ServerCommand) → Decidable command.ShortMsgId
  | .ok | .ended | .pong | .err _ | .ids _ => isTrue trivial
  | .msg msgId _ => inferInstanceAs (Decidable (msgId.length ≤ 24))

end ServerCommand

/-- A well-formed transmission: the four lengths fit their bytes. -/
structure Transmission where
  auth : List UInt8
  corr : List UInt8
  entity : List UInt8
  command : ServerCommand
  auth_lt : auth.length < 256
  corr_lt : corr.length < 256
  entity_lt : entity.length < 256
  msgId_lt : ∀ msgId body, command = .msg msgId body → msgId.length < 256

namespace Transmission

/-- The bytes in front of the command. -/
def header (t : Transmission) : List UInt8 :=
  shortString t.auth ++ (shortString t.corr ++ shortString t.entity)

/-- The bytes of a transmission. -/
def bytes (t : Transmission) : List UInt8 := t.header ++ t.command.encode

/-- A transmission behind its length. -/
def framed (t : Transmission) : List UInt8 := be16 t.bytes.length ++ t.bytes

/-- Where the correlation id, the entity id and the command of a block's first transmission
start. -/
def corrAt (t : Transmission) : ℕ := 3 + 1 + t.auth.length

@[inherit_doc corrAt] def entityAt (t : Transmission) : ℕ := t.corrAt + 1 + t.corr.length

@[inherit_doc corrAt] def commandAt (t : Transmission) : ℕ := t.entityAt + 1 + t.entity.length

end Transmission

/-- The content of a block with these transmissions. -/
def batchContent (ts : List Transmission) : List UInt8 :=
  UInt8.ofNat ts.length :: ts.flatMap Transmission.framed

/-- What the App Task does with a transmission. For a `MSG` these are the arguments of
`app_handle_reply_queue_msg` and `app_handle_contact_queue_msg`; the others are only logged. -/
inductive AppEvent where
  | ok (entity : List UInt8)
  | ended (entity : List UInt8)
  | err (entity : List UInt8)
  | unknown (entity : List UInt8)
  | msg (entity msgId body : List UInt8)
  deriving DecidableEq

/-- What is to be done with a transmission. -/
def Transmission.event (t : Transmission) : AppEvent :=
  match t.command with
  | .ok => .ok t.entity
  | .ended => .ended t.entity
  | .pong | .ids _ => .unknown t.entity
  | .err _ => .err t.entity
  | .msg msgId body => .msg t.entity msgId body

/-- The command dispatch of `smp_app_run`, from the offset of the command on. The body of a
`MSG` reaches to the end of the frame. -/
def dispatchCommand (resp : Mem) (contentLen p : ℕ) (entity : List UInt8) : Option AppEvent :=
  if p + 1 < contentLen ∧ resp p = 0x4F ∧ resp (p + 1) = 0x4B then some (.ok entity)
  else if p + 2 < contentLen ∧ resp p = 0x45 ∧ resp (p + 1) = 0x4E ∧ resp (p + 2) = 0x44 then
    some (.ended entity)
  else if p + 3 < contentLen ∧ resp p = 0x4D ∧ resp (p + 1) = 0x53 ∧ resp (p + 2) = 0x47 ∧
      resp (p + 3) = 0x20 then
    if p + 4 ≥ contentLen then none
    else
      let msgIdLen := min (resp (p + 4)).toNat 24
      if p + 5 + msgIdLen > contentLen then none
      else
        some (.msg entity (window resp (p + 5) msgIdLen)
          (window resp (p + 5 + msgIdLen) (contentLen - (p + 5 + msgIdLen))))
  else if p + 2 < contentLen ∧ resp p = 0x45 ∧ resp (p + 1) = 0x52 ∧ resp (p + 2) = 0x52 then
    some (.err entity)
  else some (.unknown entity)

/-- The parse of a frame by `smp_app_run`: the count is read and not used, the length of the
first transmission is stepped over. -/
def appDispatch (frame : List UInt8) : Option AppEvent :=
  let resp : Mem := memOf frame fun _ => 0
  let contentLen := frame.length
  if contentLen < 4 then none
  else
    (skipField resp contentLen 3).bind fun p =>
      (skipField resp contentLen p).bind fun p =>
        if p ≥ contentLen then none
        else
          let entLen := (resp p).toNat
          if p + 1 + entLen > contentLen then none
          else
            let entLen := min entLen 24
            dispatchCommand resp contentLen (p + 1 + entLen) (window resp (p + 1) entLen)

/-- The App Task's buffers hold the ids of the transmission. -/
def Transmission.ShortIds (t : Transmission) : Prop :=
  t.entity.length ≤ 24 ∧ t.command.ShortMsgId

instance (t : Transmission) : Decidable t.ShortIds :=
  inferInstanceAs (Decidable (_ ∧ _))

/-! ### Reading the format back -/

/-- A short string has one byte more. -/
theorem shortString_length (s : List UInt8) : (shortString s).length = 1 + s.length := by
  simp [shortString, Nat.add_comm]

/-- Its length byte is its length. -/
theorem ofNat_length_toNat {s : List UInt8} (h : s.length < 256) :
    (UInt8.ofNat s.length).toNat = s.length := by
  rw [toNat_ofNat_mod]
  omega

/-- A held short string: its length, and its bytes behind it. -/
theorem Holds.shortString {m : Mem} {p : ℕ} {s : List UInt8} (h : Holds m p (shortString s))
    (hs : s.length < 256) : (m p).toNat = s.length ∧ Holds m (p + 1) s := by
  rw [Lib.shortString, holds_cons] at h
  exact ⟨by rw [h.1, ofNat_length_toNat hs], h.2⟩

/-- A field with a length in front is stepped over. -/
theorem skipField_of_holds {resp : Mem} {p contentLen : ℕ} {s : List UInt8}
    (h : Holds resp p (shortString s)) (hs : s.length < 256)
    (hfits : p + 1 + s.length ≤ contentLen) :
    skipField resp contentLen p = some (p + 1 + s.length) := by
  rw [skipField, if_pos (by omega), (Holds.shortString h hs).1, if_pos hfits]

/-- Where the parts of a block's first transmission lie. -/
structure HoldsFirst (resp : Mem) (contentLen : ℕ) (t : Transmission) (rest : List UInt8) : Prop
    where
  auth : Holds resp 3 (shortString t.auth)
  corr : Holds resp t.corrAt (shortString t.corr)
  entity : Holds resp t.entityAt (shortString t.entity)
  command : Holds resp t.commandAt (t.command.encode ++ rest)
  length : contentLen = t.commandAt + t.command.encode.length + rest.length

/-- The length of a transmission's bytes ends where the block's next one starts. -/
theorem Transmission.bytes_length (t : Transmission) :
    3 + t.bytes.length = t.commandAt + t.command.encode.length := by
  simp only [bytes, header, List.length_append, shortString_length, commandAt, entityAt, corrAt]
  omega

/-- A block with a first transmission holds its parts. -/
theorem holdsFirst {resp : Mem} {t : Transmission} {ts : List Transmission}
    (h : Holds resp 0 (batchContent (t :: ts))) :
    HoldsFirst resp (batchContent (t :: ts)).length t (ts.flatMap Transmission.framed) := by
  have hlen : (batchContent (t :: ts)).length =
      t.commandAt + t.command.encode.length + (ts.flatMap Transmission.framed).length := by
    rw [← t.bytes_length, batchContent, List.flatMap_cons, Transmission.framed]
    simp only [List.length_cons, List.length_append, be16_length]
    omega
  have hparts : batchContent (t :: ts) = UInt8.ofNat (t :: ts).length ::
      (be16 t.bytes.length ++ (shortString t.auth ++ (shortString t.corr ++
        (shortString t.entity ++ (t.command.encode ++ ts.flatMap Transmission.framed))))) := by
    simp only [batchContent, List.flatMap_cons, Transmission.framed, Transmission.bytes,
      Transmission.header, List.append_assoc]
  rw [hparts, holds_cons, holds_append, holds_append, holds_append, holds_append] at h
  simp only [be16_length, shortString_length] at h
  obtain ⟨-, -, hauth, hcorr, hent, hcmd⟩ := h
  refine ⟨hauth, ?_, ?_, ?_, hlen⟩
  · rwa [show t.corrAt = 0 + 1 + 2 + (1 + t.auth.length) by rw [Transmission.corrAt]; omega]
  · rwa [show t.entityAt = 0 + 1 + 2 + (1 + t.auth.length) + (1 + t.corr.length) by
      rw [Transmission.entityAt, Transmission.corrAt]; omega]
  · rwa [show t.commandAt =
        0 + 1 + 2 + (1 + t.auth.length) + (1 + t.corr.length) + (1 + t.entity.length) by
      rw [Transmission.commandAt, Transmission.entityAt, Transmission.corrAt]; omega]

/-- The App Task does with a command what is to be done with it. What follows a `MSG` in the
frame would be taken into its body. -/
theorem dispatchCommand_event {resp : Mem} {contentLen p : ℕ} {t : Transmission}
    {rest : List UInt8} (h : Holds resp p (t.command.encode ++ rest))
    (hlen : contentLen = p + t.command.encode.length + rest.length)
    (hids : t.command.ShortMsgId) (hrest : rest = [] ∨ t.command.isMsg = false) :
    dispatchCommand resp contentLen p t.entity = some t.event := by
  rw [Transmission.event]
  cases hcommand : t.command with
  | ok =>
    rw [hcommand, ServerCommand.encode] at h hlen
    simp only [List.cons_append, holds_cons] at h
    rw [dispatchCommand, if_pos ⟨by simp at hlen; omega, h.1, h.2.1⟩]
  | ended =>
    rw [hcommand, ServerCommand.encode] at h hlen
    simp only [List.cons_append, holds_cons] at h
    rw [dispatchCommand, if_neg (by simp [h.1]),
      if_pos ⟨by simp at hlen; omega, h.1, h.2.1, h.2.2.1⟩]
  | pong =>
    rw [hcommand, ServerCommand.encode] at h
    simp only [List.cons_append, holds_cons] at h
    simp [dispatchCommand, h.1]
  | err info =>
    rw [hcommand, ServerCommand.encode] at h hlen
    simp only [List.cons_append, holds_cons] at h
    rw [dispatchCommand, if_neg (by simp [h.1]), if_neg (by simp [h.2.1]), if_neg (by simp [h.1]),
      if_pos ⟨by simp at hlen; omega, h.1, h.2.1, h.2.2.1⟩]
  | ids queue =>
    rw [hcommand, ServerCommand.encode] at h
    simp only [List.cons_append, holds_cons] at h
    simp [dispatchCommand, h.1]
  | msg msgId body =>
    obtain rfl : rest = [] := hrest.resolve_right (by simp [hcommand, ServerCommand.isMsg])
    have hid : msgId.length ≤ 24 := by simpa [hcommand, ServerCommand.ShortMsgId] using hids
    rw [hcommand, ServerCommand.encode, List.append_nil] at h
    rw [hcommand, ServerCommand.encode] at hlen
    simp only [List.length_cons, List.length_append, List.length_nil, shortString_length] at hlen
    simp only [holds_cons, holds_append, shortString_length] at h
    obtain ⟨h0, h1, h2, h3, hmsgId, hbody⟩ := h
    have hfield := Holds.shortString hmsgId (t.msgId_lt msgId body hcommand)
    have hmin : min (resp (p + 4)).toNat 24 = msgId.length := by
      rw [show p + 4 = p + 1 + 1 + 1 + 1 from rfl, hfield.1]
      exact Nat.min_eq_left hid
    rw [dispatchCommand, if_neg (by simp [h0]), if_neg (by simp [h0]),
      if_pos ⟨by omega, h0, h1, h2, h3⟩, if_neg (by omega)]
    simp only [hmin]
    rw [if_neg (by omega)]
    have hidWindow : window resp (p + 5) msgId.length = msgId := hfield.2
    have hbodyWindow : window resp (p + 5 + msgId.length)
        (contentLen - (p + 5 + msgId.length)) = body := by
      rw [show contentLen - (p + 5 + msgId.length) = body.length by omega]
      rw [show p + 5 + msgId.length = p + 1 + 1 + 1 + 1 + (1 + msgId.length) by omega]
      exact hbody
    rw [hidWindow, hbodyWindow]

/-- The App Task handles the first transmission of a frame. It handles it with its own bytes
when it is no `MSG` with others behind it. -/
theorem appDispatch_batchContent {t : Transmission} {ts : List Transmission} (hids : t.ShortIds)
    (hrest : ts = [] ∨ t.command.isMsg = false) :
    appDispatch (batchContent (t :: ts)) = some t.event := by
  have hfirst := holdsFirst (holds_memOf (batchContent (t :: ts)) fun _ => 0)
  have hlen := hfirst.length
  have hcommandAt : t.commandAt = t.entityAt + 1 + t.entity.length := rfl
  have hentityAt : t.entityAt = t.corrAt + 1 + t.corr.length := rfl
  have hcorrAt : t.corrAt = 3 + 1 + t.auth.length := rfl
  have hcmd : 2 ≤ t.command.encode.length := by
    cases t.command <;> simp [ServerCommand.encode]
  have hentity := Holds.shortString hfirst.entity t.entity_lt
  rw [appDispatch, if_neg (by omega), skipField_of_holds hfirst.auth t.auth_lt (by omega)]
  simp only [Option.bind_some]
  rw [← hcorrAt, skipField_of_holds hfirst.corr t.corr_lt (by omega)]
  simp only [Option.bind_some]
  rw [← hentityAt, if_neg (by omega), hentity.1, if_neg (by omega), Nat.min_eq_left hids.1,
    hentity.2.window_eq rfl, ← hcommandAt]
  apply dispatchCommand_event hfirst.command hlen hids.2
  rcases hrest with rfl | hmsg
  · exact Or.inl rfl
  · exact Or.inr hmsg

/-- The second transmission of a block lies behind the length of the first. -/
theorem holdsSecond {resp : Mem} {t second : Transmission} {ts : List Transmission}
    (h : Holds resp 0 (batchContent (t :: second :: ts))) :
    Holds resp 1 (be16 t.bytes.length) ∧
      Holds resp (3 + t.bytes.length) (be16 second.bytes.length) ∧
        Holds resp (3 + t.bytes.length + 2) second.bytes := by
  have hparts : batchContent (t :: second :: ts) = UInt8.ofNat (t :: second :: ts).length ::
      (be16 t.bytes.length ++ (t.bytes ++ (be16 second.bytes.length ++ (second.bytes ++
        ts.flatMap Transmission.framed)))) := by
    simp only [batchContent, List.flatMap_cons, Transmission.framed, List.append_assoc]
  rw [hparts, holds_cons, holds_append, holds_append, holds_append, holds_append] at h
  simp only [be16_length] at h
  exact ⟨h.2.1, h.2.2.2.1, h.2.2.2.2.1⟩

/-- `PONG` is the one command that starts with its first letter. -/
theorem ServerCommand.encode_pong {command : ServerCommand} {rest : List UInt8} :
    (command.encode ++ rest).take 4 = [0x50, 0x4F, 0x4E, 0x47] ↔ command = .pong := by
  cases command <;> simp [ServerCommand.encode]

/-- The network task recognises a `PONG` by a frame's first transmission. -/
theorem frameIsPong_iff {block : Mem} {t : Transmission} {ts : List Transmission}
    (h : Holds (fun i => block (2 + i)) 0 (batchContent (t :: ts))) :
    frameIsPong block (batchContent (t :: ts)).length = true ↔ t.command = .pong := by
  have hfirst := holdsFirst h
  have hlen := hfirst.length
  have hcommandAt : t.commandAt = t.entityAt + 1 + t.entity.length := rfl
  have hentityAt : t.entityAt = t.corrAt + 1 + t.corr.length := rfl
  have hcorrAt : t.corrAt = 3 + 1 + t.auth.length := rfl
  rw [frameIsPong]
  simp only [if_pos (show 3 ≤ (batchContent (t :: ts)).length by omega), Option.bind_some]
  rw [skipField_of_holds hfirst.auth t.auth_lt (by omega)]
  simp only [Option.bind_some]
  rw [← hcorrAt, skipField_of_holds hfirst.corr t.corr_lt (by omega)]
  simp only [Option.bind_some]
  rw [← hentityAt, skipField_of_holds hfirst.entity t.entity_lt (by omega), ← hcommandAt]
  constructor
  · intro hpong
    simp only [Bool.and_eq_true, decide_eq_true_eq, beq_iff_eq] at hpong
    rw [← ServerCommand.encode_pong , ← hpong.2]
    have hwhole := hfirst.command
    rw [Holds] at hwhole
    rw [← hwhole, List.length_append, ← show 4 + (t.command.encode.length +
      (ts.flatMap Transmission.framed).length - 4) = t.command.encode.length +
      (ts.flatMap Transmission.framed).length by omega, window_add]
    exact List.take_left' (window_length _ _ _)
  · intro hpong
    have hheld := hfirst.command
    rw [hpong] at hheld hlen
    rw [ServerCommand.encode, holds_append] at hheld
    simp only [ServerCommand.encode, List.length_cons, List.length_nil] at hlen
    simp only [Bool.and_eq_true, decide_eq_true_eq, beq_iff_eq]
    exact ⟨by omega, hheld.1⟩

end SimpleGo
