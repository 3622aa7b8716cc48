import SimpleGo.Agent.Messages
import SimpleGo.Lib.Runs

/-!
# Delivery receipts

A message that was sent is registered with the sequence number of its bubble in a table of
sixteen entries. A receipt names message ids; each id is looked up in the table, whoever the
receipt is from, and the sequence number found is reported as delivered. What was registered
for which contact, and what each receipt led to, is recorded beside the table.
-/

namespace SimpleGo

open Lib

/-! ### The table -/

/-- `msg_mapping_t`. -/
structure MsgMapping where
  uiSeq : UInt32
  msgId : UInt64
  active : Bool
  deriving DecidableEq

/-- `MAX_MSG_MAPPINGS`. -/
def maxMsgMappings : ℕ := 16

/-- The loop of `smp_register_msg_mapping` over the entries that are left: the first free entry
is taken, and the last one if none is free. -/
def smpRegisterMsgMapping (uiSeq : UInt32) (msgId : UInt64) : List MsgMapping → List MsgMapping
  | [] => []
  | m :: rest =>
    if m.active && !rest.isEmpty then m :: smpRegisterMsgMapping uiSeq msgId rest
    else ⟨uiSeq, msgId, true⟩ :: rest

/-- `find_seq_by_msg_id` over the entries that are left: the number, 0 if there is none, and the
entries with the one that was found freed. -/
def findSeqByMsgId (msgId : UInt64) : List MsgMapping → UInt32 × List MsgMapping
  | [] => (0, [])
  | m :: rest =>
    if m.active && m.msgId == msgId then (m.uiSeq, { m with active := false } :: rest)
    else
      let found := findSeqByMsgId msgId rest
      (found.1, m :: found.2)

/-- The entry is in use for a message with this id. -/
def MsgMapping.names (msgId : UInt64) (m : MsgMapping) : Bool := m.active && m.msgId == msgId

/-- A number of bytes, the first one highest. -/
def bigEndian64 (bytes : List UInt8) : UInt64 :=
  bytes.foldl (fun id b => (id <<< 8) ||| b.toUInt64) (0 : UInt64)

/-- The ids a receipt names, from an offset on: eight bytes of id, and a hash with its length
in front. -/
def receiptIds (body : List UInt8) : (count voff : ℕ) → List UInt64
  | 0, _ => []
  | count + 1, voff =>
    if voff + 9 < body.length then
      bigEndian64 ((body.drop voff).take 8) ::
        receiptIds body count (voff + 9 + (body.getD (voff + 8) 0).toNat)
    else []

/-- The ids in the body of an agent message that is a receipt: the `V` of
`extract_chat_text`. -/
def extractReceipts (body : List UInt8) : List UInt64 :=
  if hasInnerTag body 0x56 && decide (innerOffset body + 1 < body.length) then
    receiptIds body (body.getD (innerOffset body + 1) 0).toNat (innerOffset body + 2)
  else []

/-! ### The App Task -/

/-- A message that was sent to a contact and registered. -/
structure RegisteredMsg where
  contact : ℕ
  msgId : UInt64
  uiSeq : UInt32
  deriving DecidableEq

/-- An id that a contact's receipt named, how many messages had been registered by then, and
the number that was reported as delivered. -/
structure HandledReceipt where
  contact : ℕ
  msgId : UInt64
  registeredBefore : ℕ
  delivered : Option UInt32
  deriving DecidableEq

/-- The table, and the record of what went through it. -/
structure ReceiptTasks where
  msgMappings : List MsgMapping
  registered : List RegisteredMsg
  handled : List HandledReceipt

namespace ReceiptTasks

/-- The table at start-up. -/
def boot : ReceiptTasks where
  msgMappings := List.replicate maxMsgMappings ⟨0, 0, false⟩
  registered := []
  handled := []

/-- `app_process_keyboard_queue` has sent a text: it is registered. -/
def sent (s : ReceiptTasks) (msg : RegisteredMsg) : ReceiptTasks :=
  { s with
    msgMappings := smpRegisterMsgMapping msg.uiSeq msg.msgId s.msgMappings
    registered := s.registered ++ [msg] }

/-- `smp_notify_receipt_received`, for an id that a receipt of this contact names. -/
def smpNotifyReceiptReceived (s : ReceiptTasks) (contact : ℕ) (msgId : UInt64) : ReceiptTasks :=
  let found := findSeqByMsgId msgId s.msgMappings
  { s with
    msgMappings := found.2
    handled := s.handled ++
      [⟨contact, msgId, s.registered.length, if found.1 > 0 then some found.1 else none⟩] }

end ReceiptTasks

/-- What is done to the table. -/
inductive ReceiptStep where
  | sent (msg : RegisteredMsg)
  | receipt (contact : ℕ) (msgId : UInt64)
  deriving DecidableEq

/-- The table after a step. -/
def ReceiptTasks.step (s : ReceiptTasks) : ReceiptStep → ReceiptTasks
  | .sent msg => s.sent msg
  | .receipt contact msgId => s.smpNotifyReceiptReceived contact msgId

/-- What happens in the App Task: a text has been sent, or the ratchet has decrypted an agent
message of a contact. -/
inductive ReceiptEvent where
  | sent (msg : RegisteredMsg)
  | message (contact : ℕ) (body : List UInt8)
  deriving DecidableEq

/-- What an event does to the table. -/
def ReceiptEvent.steps : ReceiptEvent → List ReceiptStep
  | .sent msg => [.sent msg]
  | .message contact body => (extractReceipts body).map (.receipt contact)

/-! ### The property and the condition -/

/-- The last messages of a list. -/
def lastMsgs (n : ℕ) (msgs : List RegisteredMsg) : List RegisteredMsg := msgs.drop (msgs.length - n)

/-- A receipt was handled rightly: what it reported is the number of a message that was sent to
its contact with the id it names, and that message, if it was among the last sixteen, is
reported now or was reported before. -/
def HandledReceipt.Right (registered : List RegisteredMsg) (earlier : List HandledReceipt)
    (r : HandledReceipt) : Prop :=
  (∀ seq ∈ r.delivered, ∃ msg ∈ registered.take r.registeredBefore,
    msg.contact = r.contact ∧ msg.msgId = r.msgId ∧ msg.uiSeq = seq) ∧
  ∀ msg ∈ lastMsgs maxMsgMappings (registered.take r.registeredBefore),
    msg.contact = r.contact → msg.msgId = r.msgId →
      ∃ r' ∈ earlier ++ [r], r'.delivered = some msg.uiSeq

/-- Every receipt reached its message. -/
def ReceiptTasks.ReceiptsReach (s : ReceiptTasks) : Prop :=
  ∀ earlier r later, s.handled = earlier ++ r :: later → r.Right s.registered earlier

/-- The table tells the messages apart. A text has a number of its own and an id that its
contact did not have before, and when no entry is free the last entry is not that of one of
the last fifteen messages. The first entry with the id that a receipt names belongs to a
message sent to the receipt's contact. -/
def ReceiptStep.Distinct (s : ReceiptTasks) : ReceiptStep → Prop
  | .sent msg =>
    msg.uiSeq ≠ 0 ∧
    (∀ r ∈ s.registered, r.uiSeq ≠ msg.uiSeq ∧ (r.contact = msg.contact → r.msgId ≠ msg.msgId)) ∧
    ((∀ m ∈ s.msgMappings, m.active = true) →
      ∀ r ∈ lastMsgs (maxMsgMappings - 1) s.registered, ∀ m ∈ s.msgMappings.getLast?,
        r.uiSeq ≠ m.uiSeq)
  | .receipt contact msgId =>
    ∀ m ∈ s.msgMappings.find? (MsgMapping.names msgId),
      ∃ r ∈ s.registered, r.contact = contact ∧ r.msgId = msgId ∧ r.uiSeq = m.uiSeq

instance (s : ReceiptTasks) : (step : ReceiptStep) → Decidable (step.Distinct s)
  | .sent _ => inferInstanceAs (Decidable (_ ∧ _ ∧ _))
  | .receipt _ _ => inferInstanceAs (Decidable (∀ m ∈ _, _))

/-! ### What the two functions do to the table -/

/-- A table that is not empty holds what was registered. -/
theorem smpRegisterMsgMapping_mem (uiSeq : UInt32) (msgId : UInt64) {table : List MsgMapping}
    (h : table ≠ []) : (⟨uiSeq, msgId, true⟩ : MsgMapping) ∈
      smpRegisterMsgMapping uiSeq msgId table := by
  induction table with
  | nil => exact absurd rfl h
  | cons m rest ih =>
    rw [smpRegisterMsgMapping]
    cases rest with
    | nil => simp
    | cons m' rest =>
      split
      · exact List.mem_cons_of_mem m (ih (List.cons_ne_nil m' rest))
      · exact List.mem_cons_self

/-- Registering adds one entry at most. -/
theorem mem_of_mem_smpRegisterMsgMapping {uiSeq : UInt32} {msgId : UInt64} {m : MsgMapping}
    {table : List MsgMapping} (h : m ∈ smpRegisterMsgMapping uiSeq msgId table) :
    m ∈ table ∨ m = ⟨uiSeq, msgId, true⟩ := by
  induction table with
  | nil => exact absurd h List.not_mem_nil
  | cons first rest ih =>
    rw [smpRegisterMsgMapping] at h
    split at h
    · rcases List.mem_cons.1 h with rfl | hrest
      · exact Or.inl List.mem_cons_self
      · exact (ih hrest).imp_left (List.mem_cons_of_mem first)
    · rcases List.mem_cons.1 h with rfl | hrest
      · exact Or.inr rfl
      · exact Or.inl (List.mem_cons_of_mem first hrest)

/-- An entry in use stays, unless no entry is free and it is the last one. -/
theorem smpRegisterMsgMapping_keeps (uiSeq : UInt32) (msgId : UInt64) {m : MsgMapping}
    {table : List MsgMapping} (hm : m ∈ table) (hactive : m.active = true) :
    m ∈ smpRegisterMsgMapping uiSeq msgId table ∨
      (table.getLast? = some m ∧ ∀ m' ∈ table, m'.active = true) := by
  induction table with
  | nil => exact absurd hm List.not_mem_nil
  | cons first rest ih =>
    rw [smpRegisterMsgMapping]
    cases rest with
    | nil =>
      obtain rfl := List.mem_singleton.1 hm
      exact Or.inr ⟨rfl, fun m' hm' => by rwa [List.mem_singleton.1 hm']⟩
    | cons second rest =>
      by_cases hfirst : first.active = true
      · rw [if_pos (by simp [hfirst])]
        rcases List.mem_cons.1 hm with rfl | hrest
        · exact Or.inl List.mem_cons_self
        · rcases ih hrest with hkept | ⟨hlast, hall⟩
          · exact Or.inl (List.mem_cons_of_mem first hkept)
          · refine Or.inr ⟨by rwa [List.getLast?_cons_cons], fun m' hm' => ?_⟩
            rcases List.mem_cons.1 hm' with rfl | hm'
            · exact hfirst
            · exact hall m' hm'
      · rw [if_neg (by simp [hfirst])]
        rcases List.mem_cons.1 hm with rfl | hrest
        · exact absurd hactive hfirst
        · exact Or.inl (List.mem_cons_of_mem _ hrest)

/-- The table does not become empty. -/
theorem smpRegisterMsgMapping_ne_nil (uiSeq : UInt32) (msgId : UInt64) {table : List MsgMapping}
    (h : table ≠ []) : smpRegisterMsgMapping uiSeq msgId table ≠ [] :=
  List.ne_nil_of_mem (smpRegisterMsgMapping_mem uiSeq msgId h)

/-- A look-up leaves the number of entries as it is. -/
theorem findSeqByMsgId_length (msgId : UInt64) (table : List MsgMapping) :
    (findSeqByMsgId msgId table).2.length = table.length := by
  induction table with
  | nil => rfl
  | cons first rest ih =>
    rw [findSeqByMsgId]
    split
    · rfl
    · exact congrArg Nat.succ ih

/-- Without an entry in use for the id nothing is found and nothing changes. -/
theorem findSeqByMsgId_none {msgId : UInt64} {table : List MsgMapping}
    (h : table.find? (MsgMapping.names msgId) = none) :
    findSeqByMsgId msgId table = (0, table) := by
  induction table with
  | nil => rfl
  | cons first rest ih =>
    rw [List.find?_cons] at h
    cases hnames : first.names msgId with
    | true => simp [hnames] at h
    | false =>
      rw [hnames] at h
      rw [MsgMapping.names] at hnames
      rw [findSeqByMsgId, if_neg (by rw [hnames]; exact Bool.false_ne_true), ih h]

/-- The number found is that of the first entry in use for the id, and only that entry is
freed. -/
theorem findSeqByMsgId_some {msgId : UInt64} {table : List MsgMapping} {m : MsgMapping}
    (h : table.find? (MsgMapping.names msgId) = some m) :
    (findSeqByMsgId msgId table).1 = m.uiSeq ∧
      (∀ m' ∈ table, m' = m ∨ m' ∈ (findSeqByMsgId msgId table).2) ∧
      ∀ m' ∈ (findSeqByMsgId msgId table).2, m'.active = true → m' ∈ table := by
  induction table with
  | nil => simp at h
  | cons first rest ih =>
    rw [List.find?_cons] at h
    cases hnames : first.names msgId with
    | true =>
      rw [hnames] at h
      obtain rfl := Option.some.inj h
      rw [MsgMapping.names] at hnames
      rw [findSeqByMsgId, if_pos hnames]
      refine ⟨rfl, fun m' hm' => ?_, fun m' hm' hactive => ?_⟩
      · exact (List.mem_cons.1 hm').imp_right (List.mem_cons_of_mem _)
      · rcases List.mem_cons.1 hm' with rfl | hrest
        · exact absurd hactive Bool.false_ne_true
        · exact List.mem_cons_of_mem first hrest
    | false =>
      rw [hnames] at h
      obtain ⟨hseq, hkept, horigin⟩ := ih h
      rw [MsgMapping.names] at hnames
      rw [findSeqByMsgId, if_neg (by rw [hnames]; exact Bool.false_ne_true)]
      refine ⟨hseq, fun m' hm' => ?_, fun m' hm' hactive => ?_⟩
      · rcases List.mem_cons.1 hm' with rfl | hrest
        · exact Or.inr List.mem_cons_self
        · exact (hkept m' hrest).imp_right (List.mem_cons_of_mem first)
      · rcases List.mem_cons.1 hm' with rfl | hrest
        · exact List.mem_cons_self
        · exact List.mem_cons_of_mem first (horigin m' hrest hactive)

/-! ### The invariant -/

/-- The messages that were among the last ones before another came are so still, but the
first of them. -/
theorem mem_lastMsgs_append {n : ℕ} {msgs : List RegisteredMsg} {msg r : RegisteredMsg}
    (h : r ∈ lastMsgs (n + 1) (msgs ++ [msg])) : r = msg ∨ r ∈ lastMsgs n msgs := by
  rw [lastMsgs, List.length_append, List.length_singleton, Nat.add_sub_add_right] at h
  rcases Nat.lt_or_ge msgs.length (msgs.length - n) with hlt | hle
  · omega
  · rw [List.drop_append_of_le_length hle] at h
    rcases List.mem_append.1 h with h | h
    · exact Or.inr h
    · exact Or.inl (List.mem_singleton.1 h)

/-- The last messages are among the last messages, and one more. -/
theorem mem_lastMsgs_succ {n : ℕ} {msgs : List RegisteredMsg} {r : RegisteredMsg}
    (h : r ∈ lastMsgs n msgs) : r ∈ lastMsgs (n + 1) msgs := by
  rw [lastMsgs] at h ⊢
  have hdrop : msgs.drop (msgs.length - n) =
      (msgs.drop (msgs.length - (n + 1))).drop (msgs.length - n - (msgs.length - (n + 1))) := by
    rw [List.drop_drop]
    congr 1
    omega
  rw [hdrop] at h
  exact List.mem_of_mem_drop h

/-- A message waits for its receipt: an entry is in use for it. -/
def ReceiptTasks.Waits (s : ReceiptTasks) (msg : RegisteredMsg) : Prop :=
  ⟨msg.uiSeq, msg.msgId, true⟩ ∈ s.msgMappings

/-- What holds at every moment of a run with distinct messages. -/
structure ReceiptInv (s : ReceiptTasks) : Prop where
  table : s.msgMappings ≠ []
  origin : ∀ m ∈ s.msgMappings, m.active = true → ∃ r ∈ s.registered, r.uiSeq = m.uiSeq
  seqs : ∀ r ∈ s.registered, r.uiSeq ≠ 0
  ids : ∀ r ∈ s.registered, ∀ r' ∈ s.registered, r.contact = r'.contact → r.msgId = r'.msgId →
    r = r'
  waits : ∀ r ∈ lastMsgs maxMsgMappings s.registered,
    s.Waits r ∨ ∃ e ∈ s.handled, e.delivered = some r.uiSeq
  reach : s.ReceiptsReach
  before : ∀ e ∈ s.handled, e.registeredBefore ≤ s.registered.length

/-- The receipts handled so far are not concerned by a message that comes later. -/
theorem HandledReceipt.Right.append {registered : List RegisteredMsg}
    {earlier : List HandledReceipt} {r : HandledReceipt} (h : r.Right registered earlier)
    (hbefore : r.registeredBefore ≤ registered.length) (more : List RegisteredMsg) :
    r.Right (registered ++ more) earlier := by
  rw [HandledReceipt.Right, List.take_append_of_le_length hbefore]
  exact h

/-- A distinct message is registered. -/
theorem ReceiptInv.sent {s : ReceiptTasks} (h : ReceiptInv s) {msg : RegisteredMsg}
    (hdistinct : ReceiptStep.Distinct s (.sent msg)) : ReceiptInv (s.sent msg) := by
  obtain ⟨hseq, hnew, hfull⟩ := hdistinct
  refine ⟨smpRegisterMsgMapping_ne_nil _ _ h.table, ?_, ?_, ?_, ?_, ?_, ?_⟩
  · intro m hm hactive
    rcases mem_of_mem_smpRegisterMsgMapping hm with hm | rfl
    · obtain ⟨r, hr, hseq⟩ := h.origin m hm hactive
      exact ⟨r, List.mem_append_left _ hr, hseq⟩
    · exact ⟨msg, List.mem_append_right _ (List.mem_singleton.2 rfl), rfl⟩
  · intro r hr
    rcases List.mem_append.1 hr with hr | hr
    · exact h.seqs r hr
    · rwa [List.mem_singleton.1 hr]
  · intro r hr r' hr' hcontact hid
    rcases List.mem_append.1 hr with hold | hlast <;>
      rcases List.mem_append.1 hr' with hold' | hlast'
    · exact h.ids r hold r' hold' hcontact hid
    · rw [List.mem_singleton.1 hlast'] at hcontact hid
      exact absurd hid ((hnew r hold).2 hcontact)
    · rw [List.mem_singleton.1 hlast] at hcontact hid
      exact absurd hid.symm ((hnew r' hold').2 hcontact.symm)
    · rw [List.mem_singleton.1 hlast, List.mem_singleton.1 hlast']
  · intro r hr
    rcases mem_lastMsgs_append hr with rfl | hr
    · exact Or.inl (smpRegisterMsgMapping_mem _ _ h.table)
    · rcases h.waits r (mem_lastMsgs_succ hr) with hwaits | hreported
      · rcases smpRegisterMsgMapping_keeps msg.uiSeq msg.msgId hwaits rfl with hkept | ⟨hlast, hall⟩
        · exact Or.inl hkept
        · exact absurd rfl (hfull hall r hr _ hlast)
      · exact Or.inr hreported
  · intro earlier r later hhandled
    have hmem : r ∈ s.handled := by
      change s.handled = _ at hhandled
      rw [hhandled]
      exact List.mem_append_right _ List.mem_cons_self
    exact (h.reach earlier r later hhandled).append (h.before r hmem) [msg]
  · intro e he
    change e.registeredBefore ≤ (s.registered ++ [msg]).length
    rw [List.length_append]
    exact Nat.le_add_right_of_le (h.before e he)

/-- A handled receipt that is right is added. -/
theorem ReceiptsReach.append {registered : List RegisteredMsg} {handled : List HandledReceipt}
    (h : ∀ earlier r later, handled = earlier ++ r :: later → r.Right registered earlier)
    {e : HandledReceipt} (he : e.Right registered handled) :
    ∀ earlier r later, handled ++ [e] = earlier ++ r :: later → r.Right registered earlier := by
  intro earlier r later heq
  rcases List.eq_nil_or_concat later with rfl | ⟨later', last, rfl⟩
  · obtain ⟨rfl, hr⟩ := List.append_inj' heq rfl
    obtain rfl : e = r := by simpa using hr
    exact he
  · rw [List.concat_eq_append, ← List.cons_append, ← List.append_assoc] at heq
    exact h earlier r later' (List.append_inj' heq rfl).1

/-- A receipt is looked up that finds no other contact's message. -/
theorem ReceiptInv.receipt {s : ReceiptTasks} (h : ReceiptInv s) {contact : ℕ} {msgId : UInt64}
    (hdistinct : ReceiptStep.Distinct s (.receipt contact msgId)) :
    ReceiptInv (s.smpNotifyReceiptReceived contact msgId) := by
  have hwaiting : ∀ r ∈ lastMsgs maxMsgMappings s.registered, r.msgId = msgId →
      s.msgMappings.find? (MsgMapping.names msgId) = none →
        ∃ e ∈ s.handled, e.delivered = some r.uiSeq := by
    intro r hr hid hnone
    refine (h.waits r hr).resolve_left fun hwaits => ?_
    have hfree := List.find?_eq_none.1 hnone _ hwaits
    exact hfree (by simp [MsgMapping.names, hid])
  rw [ReceiptTasks.smpNotifyReceiptReceived]
  cases hfind : s.msgMappings.find? (MsgMapping.names msgId) with
  | none =>
    rw [findSeqByMsgId_none hfind]
    refine ⟨h.table, h.origin, h.seqs, h.ids, fun r hr => ?_, ReceiptsReach.append h.reach ?_, ?_⟩
    · exact (h.waits r hr).imp_right fun ⟨e, he, hseq⟩ => ⟨e, List.mem_append_left _ he, hseq⟩
    · refine ⟨fun seq hseq => absurd hseq (by simp), fun r hr _ hid => ?_⟩
      rw [List.take_length] at hr
      obtain ⟨e, he, hseq⟩ := hwaiting r hr hid hfind
      exact ⟨e, List.mem_append_left _ he, hseq⟩
    · intro e he
      rcases List.mem_append.1 he with he | he
      · exact h.before e he
      · exact Nat.le_of_eq (by rw [List.mem_singleton.1 he])
  | some m =>
    obtain ⟨hnumber, hkept, horigin⟩ := findSeqByMsgId_some hfind
    obtain ⟨owner, howner, hcontact, hid, hseq⟩ := hdistinct m hfind
    have hpos : m.uiSeq > 0 := by
      rw [← hseq]
      exact UInt32.pos_iff_ne_zero.2 (h.seqs owner howner)
    rw [hnumber, if_pos hpos]
    refine ⟨?_, fun m' hm' hactive => h.origin m' (horigin m' hm' hactive) hactive, h.seqs, h.ids,
      fun r hr => ?_, ReceiptsReach.append h.reach ⟨?_, ?_⟩, ?_⟩
    · rw [← List.length_pos_iff, findSeqByMsgId_length]
      exact List.length_pos_iff.2 h.table
    · rcases h.waits r hr with hwaits | ⟨e, he, hreported⟩
      · rcases hkept _ hwaits with rfl | hwaits
        · exact Or.inr ⟨_, List.mem_append_right _ (List.mem_singleton.2 rfl), rfl⟩
        · exact Or.inl hwaits
      · exact Or.inr ⟨e, List.mem_append_left _ he, hreported⟩
    · rintro seq ⟨⟩
      rw [List.take_length]
      exact ⟨owner, howner, hcontact, hid, hseq⟩
    · intro r hr hsame hsameId
      rw [List.take_length] at hr
      have heq : r = owner := h.ids r (List.mem_of_mem_drop hr) owner howner
        (hsame.trans hcontact.symm) (hsameId.trans hid.symm)
      exact ⟨_, List.mem_append_right _ (List.mem_singleton.2 rfl), by rw [heq, hseq]⟩
    · intro e he
      rcases List.mem_append.1 he with he | he
      · exact h.before e he
      · exact Nat.le_of_eq (by rw [List.mem_singleton.1 he])

/-- A distinct step keeps the invariant. -/
theorem ReceiptInv.step {s : ReceiptTasks} (h : ReceiptInv s) {step : ReceiptStep}
    (hdistinct : step.Distinct s) : ReceiptInv (s.step step) := by
  cases step with
  | sent msg => exact h.sent hdistinct
  | receipt contact msgId => exact h.receipt hdistinct

/-- The table at start-up is free. -/
theorem receiptInv_boot : ReceiptInv ReceiptTasks.boot where
  table := by decide
  origin := by
    intro m hm hactive
    obtain rfl := List.eq_of_mem_replicate hm
    exact absurd hactive Bool.false_ne_true
  seqs := fun _ hr => absurd hr List.not_mem_nil
  ids := fun _ hr => absurd hr List.not_mem_nil
  waits := fun _ hr => absurd hr List.not_mem_nil
  reach := fun earlier r later h => absurd h.symm (by simp [ReceiptTasks.boot])
  before := fun _ he => absurd he List.not_mem_nil

/-- While the table tells the messages apart, every receipt of a contact is reported for the
message sent to that contact with the id it names, and for no other. -/
theorem receipts_reach_their_message {events : List ReceiptEvent}
    (hdistinct : StepsMeet ReceiptTasks.step (fun s step => step.Distinct s) ReceiptTasks.boot
      (events.flatMap ReceiptEvent.steps)) :
    (runFrom ReceiptTasks.step ReceiptTasks.boot
      (events.flatMap ReceiptEvent.steps)).ReceiptsReach :=
  (hdistinct.invariant (fun _ _ h hstep => h.step hstep) receiptInv_boot).reach

/-- The body of an agent message that is a receipt for one message id below 256. -/
def oneReceipt (id : UInt8) : List UInt8 :=
  [0x4D, 0, 0, 0, 0, 0, 0, 0, 1, 0, 0x56, 1, 0, 0, 0, 0, 0, 0, 0, id, 0, 0]

/-- A message to each of two contacts, with different ids, and the receipts. -/
theorem receipts_reach_their_message_two_contacts :
    (runFrom ReceiptTasks.step ReceiptTasks.boot
      (List.flatMap ReceiptEvent.steps [.sent ⟨1, 3, 1⟩, .sent ⟨2, 4, 2⟩,
        .message 2 (oneReceipt 4), .message 1 (oneReceipt 3)])).ReceiptsReach :=
  receipts_reach_their_message (by decide)

/-- A message to each of two contacts, with the same id: the receipt of the second contact is
reported for the message to the first. -/
theorem receipt_reported_for_another_contact :
    ¬ (runFrom ReceiptTasks.step ReceiptTasks.boot
      (List.flatMap ReceiptEvent.steps [.sent ⟨1, 3, 1⟩, .sent ⟨2, 3, 2⟩,
        .message 2 (oneReceipt 3)])).ReceiptsReach := by
  intro h
  obtain ⟨hsound, -⟩ := h [] ⟨2, 3, 2, some 1⟩ [] (by decide)
  obtain ⟨msg, hmsg, hcontact, -, hseq⟩ := hsound 1 rfl
  revert msg
  decide

end SimpleGo
