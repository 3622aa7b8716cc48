import SimpleGo.History.AnyLoad
import SimpleGo.Tasks.FailedHistory
import SimpleGo.Tasks.ReceiptLists

/-!
# The delivered mark of a contact

The history of one contact while messages are sent and received and delivery receipts come in. The
mark in the header is the index of a record: a receipt moves it to the last record there is, and a
new file starts with index zero. Beside the device are recorded the messages that were stored, with
the ids of those that were really sent, the receipts that came, and the indices the mark was moved
up to.
-/

namespace SimpleGo

open Lib

variable {K : Type}

/-- The history of a contact, and what has happened to it. -/
structure MarkedHistory (K : Type) where
  dev : HistoryDevice K
  /-- The stored messages; those that were sent have an id. -/
  log : List (HistoryMessage × Option UInt64)
  /-- The receipts received. -/
  receipts : List (List UInt8)
  /-- The indices that the receipts moved the mark up to. -/
  covered : List UInt16

/-- What is done to the history of a contact. -/
inductive MarkOp where
  /-- `app_process_keyboard_queue`. -/
  | send (text : List UInt8) (timestamp : Int64) (outcome : SendOutcome) (faults : AppendFaults)
  /-- A chat message is received. -/
  | receive (text : List UInt8) (timestamp : Int64) (faults : AppendFaults)
  /-- An agent message is received, which may be a delivery receipt. -/
  | receipt (body : List UInt8) (countFaults : CountFaults) (faults : UpdateFaults)

/-- The body is that of a delivery receipt: the `V` of `extract_chat_text`. -/
def isReceipt (body : List UInt8) : Bool :=
  hasInnerTag body 0x56 && decide (innerOffset body + 1 < body.length)

/-- A header update comes to look at the header. -/
def UpdateFaults.reads (faults : UpdateFaults) : Bool :=
  faults.lock && faults.openUpdate && faults.readHeader

/-- The counters come to be read from the header. -/
def CountFaults.reads (faults : CountFaults) : Bool :=
  faults.lock && faults.openRead && faults.readHeader

namespace MarkedHistory

/-- The history at the start: nothing is stored. -/
def start (dev : HistoryDevice K) : MarkedHistory K := ⟨dev, [], [], []⟩

variable (s : MarkedHistory K)

/-- `smp_history_append`; the log has the message when it was stored. -/
def append (H : HistoryPrimitives K) (slot : UInt8) (msg : HistoryMessage) (id : Option UInt64)
    (faults : AppendFaults) : MarkedHistory K :=
  let result := smpHistoryAppend H s.dev slot msg faults
  { s with
    dev := result.1
    log := if result.2 = .ok then s.log ++ [(msg, id)] else s.log }

/-- `app_process_keyboard_queue` for one message. -/
def send (H : HistoryPrimitives K) (slot : UInt8) (text : List UInt8) (timestamp : Int64)
    (outcome : SendOutcome) (faults : AppendFaults) : MarkedHistory K :=
  match outcome with
  | .inactive => s
  | .sent msgId =>
    s.append H slot (historyMessageOf historyDirSent historyStatusSent timestamp text)
      (some msgId) faults
  | .failed =>
    s.append H slot (historyMessageOf historyDirSent historyStatusFailed timestamp text) none faults

/-- A chat message is received. -/
def receive (H : HistoryPrimitives K) (slot : UInt8) (text : List UInt8) (timestamp : Int64)
    (faults : AppendFaults) : MarkedHistory K :=
  s.append H slot (historyMessageOf historyDirReceived 0 timestamp text) none faults

/-- A delivery receipt: the mark is moved to the last message. -/
def receipt (slot : UInt8) (body : List UInt8) (countFaults : CountFaults)
    (faults : UpdateFaults) : MarkedHistory K :=
  if isReceipt body then
    let s := { s with receipts := s.receipts ++ [body] }
    match smpHistoryGetCounts s.dev slot countFaults with
    | (.ok, some (total, _)) =>
      if total > 0 then
        { s with
          dev := (smpHistoryUpdateDelivered s.dev slot (total - 1) faults).1
          covered := if faults.reads then s.covered ++ [total - 1] else s.covered }
      else s
    | _ => s
  else s

/-- The history after an operation. -/
def step (H : HistoryPrimitives K) (slot : UInt8) (s : MarkedHistory K) :
    MarkOp → MarkedHistory K
  | .send text timestamp outcome faults => s.send H slot text timestamp outcome faults
  | .receive text timestamp faults => s.receive H slot text timestamp faults
  | .receipt body countFaults faults => s.receipt slot body countFaults faults

/-- The id of the sent message at an index. -/
def sentId (k : ℕ) : Option UInt64 := s.log[k]?.bind Prod.snd

end MarkedHistory

/-! ### What the mark should mean -/

/-- A receipt confirms a message: its payload is a list of receipts, one of them for the id. -/
def Confirms (body : List UInt8) (id : UInt64) : Prop :=
  ∃ rs : List ReceiptEntry, rs.length ≤ 255 ∧ body.drop (innerOffset body) = receiptsPayload rs ∧
    ∃ r ∈ rs, r.msgId = id

/-- The delivered mark in the header of a slot's file. -/
def historyMark (dev : HistoryDevice K) (slot : UInt8) : Option UInt16 :=
  ((dev.sd (historyBuildPath slot)).bind HistoryHeader.read).map HistoryHeader.lastDeliveredIdx

namespace MarkedHistory

/-- Some receipt has confirmed a message. -/
def Confirmed (s : MarkedHistory K) (id : UInt64) : Prop := ∃ body ∈ s.receipts, Confirms body id

/-- The delivered mark is sound. -/
structure MarkSound (H : HistoryOpening K) (slot : UInt8) (s : MarkedHistory K) : Prop where
  /-- A sent message the mark covers is confirmed, or precedes one that is. -/
  covers : ∀ mark ∈ historyMark s.dev slot, ∀ k ≤ mark.toNat, ∀ id, s.sentId k = some id →
    ∃ j ≥ k, ∃ id', s.sentId j = some id' ∧ s.Confirmed id'
  /-- A sent message is loaded as delivered only if it was stored so or a receipt covered it. -/
  shown : ∀ (count : ℤ) (faults : LoadFaults) (heap : Mem) (i : ℕ) (shown : HistoryMessage),
    (smpHistoryLoadRecent H s.dev slot count faults heap).2[i]? = some shown →
      shown.direction = historyDirSent → shown.deliveryStatus = 1 →
      (∃ record ∈ s.log[(historyStartIdx s.log.length count).toNat + i]?,
        record.1.deliveryStatus = 1) ∨
      ∃ index ∈ s.covered, (historyStartIdx s.log.length count).toNat + i ≤ index.toNat

end MarkedHistory

/-! ### When it does -/

/-- The card refuses an append: nothing is written, and it fails. -/
def AppendFaults.Refused (faults : AppendFaults) (file : Option (List UInt8)) : Prop :=
  faults.cpu ≠ some .ok ∧
    (faults.sdAvailable = false ∨ faults.lock₁ = false ∨
      (faults.openRead = true ∧ file ≠ .none ∧ faults.readHeader = false) ∨ faults.cpu ≠ .none ∨
      faults.lock₂ = false ∨ faults.openWrite = false)

/-- An append is refused, or nothing goes wrong in it and the counter has room. -/
def MarkedHistory.StoresRight (s : MarkedHistory K) (slot : UInt8) (msg : HistoryMessage)
    (faults : AppendFaults) : Prop :=
  faults.Refused (s.dev.sd (historyBuildPath slot)) ∨
    (faults.Clean msg ∧ s.log.length + 1 < 65536)

/-- The last sent message of the log is confirmed, by this receipt or an earlier one. -/
def MarkedHistory.LastConfirmed (s : MarkedHistory K) (body : List UInt8) : Prop :=
  ∀ k id, s.sentId k = some id → (∀ j > k, s.sentId j = none) →
    s.Confirmed id ∨ Confirms body id

/-- The condition on an operation: the card refuses it or does it, the first message of the
history was not sent, and a receipt that moves the mark comes when the last sent message is
confirmed. -/
def MarkOp.MarksRight (slot : UInt8) (s : MarkedHistory K) : MarkOp → Prop
  | .send text timestamp outcome faults =>
    match outcome with
    | .inactive => True
    | .sent _ =>
      s.StoresRight slot (historyMessageOf historyDirSent historyStatusSent timestamp text) faults ∧
        (s.log = [] → faults.Refused (s.dev.sd (historyBuildPath slot)))
    | .failed =>
      s.StoresRight slot (historyMessageOf historyDirSent historyStatusFailed timestamp text) faults
  | .receive text timestamp faults =>
    s.StoresRight slot (historyMessageOf historyDirReceived 0 timestamp text) faults
  | .receipt body countFaults faults =>
    isReceipt body = true → countFaults.reads = true → faults.reads = true →
      faults.Clean ∧ s.LastConfirmed body

/-! ### The device -/

/-- A message of a run is shown as the message of the list with its number. -/
theorem ShowsRun.getElem? {header : HistoryHeader} {log loaded : List HistoryMessage}
    {start i : ℕ} (h : ShowsRun header log start loaded) {shown : HistoryMessage}
    (hi : loaded[i]? = some shown) :
    ∃ msg, log[start + i]? = some msg ∧ shown = msg.shown header (UInt16.ofNat (start + i)) := by
  obtain ⟨late, ⟨rest, hlate⟩, rfl⟩ := h
  rw [getElem?_historyShown] at hi
  obtain ⟨msg, hmsg, rfl⟩ := Option.map_eq_some_iff.mp hi
  refine ⟨msg, ?_, rfl⟩
  rw [← List.getElem?_drop, ← hlate,
    List.getElem?_append_left (List.getElem?_eq_some_iff.mp hmsg).1]
  exact hmsg

section Device

variable {H : HistoryOpening K} {dev : HistoryDevice K} {slot : UInt8}

/-- Pass 1 fails with an error, or it has the lock and has read the header of a file it opened. -/
theorem historyReadHeader_reads (sd : Store String (List UInt8)) (slot : UInt8)
    (faults : AppendFaults) :
    match historyReadHeader sd slot faults with
    | .error err => err ≠ .ok
    | .ok _ => faults.lock₁ = true ∧ (faults.openRead = true → sd (historyBuildPath slot) ≠ none →
        faults.readHeader = true) := by
  unfold historyReadHeader
  by_cases hlock : faults.lock₁ = true
  · rw [if_pos hlock]
    by_cases hopen : faults.openRead = true
    · rw [if_pos hopen]
      cases hfile : sd (historyBuildPath slot) with
      | none => exact ⟨hlock, fun _ hsome => absurd rfl hsome⟩
      | some file =>
        by_cases hread : faults.readHeader = true
        · simp only [if_pos hread]
          cases HistoryHeader.read file with
          | none => exact EspErr.noConfusion
          | some header =>
            by_cases hmagic : header.magic = historyMagic
            · simp only [if_pos hmagic]
              exact ⟨hlock, fun _ _ => hread⟩
            · simp only [if_neg hmagic]
              exact EspErr.noConfusion
        · simp only [if_neg hread]
          exact EspErr.noConfusion
    · rw [if_neg hopen]
      exact ⟨hlock, fun h => absurd h hopen⟩
  · rw [if_neg hlock]
    exact EspErr.noConfusion

/-- A refused append fails and leaves the card. -/
theorem smpHistoryAppend_refused (H : HistoryPrimitives K) (msg : HistoryMessage)
    {faults : AppendFaults} (h : faults.Refused (dev.sd (historyBuildPath slot))) :
    (smpHistoryAppend H dev slot msg faults).2 ≠ .ok ∧
      (smpHistoryAppend H dev slot msg faults).1.sd = dev.sd ∧
      (smpHistoryAppend H dev slot msg faults).1.masterKey = dev.masterKey ∧
      (smpHistoryAppend H dev slot msg faults).1.initialized = dev.initialized := by
  obtain ⟨hcpu, hrefused⟩ := h
  have hreads := historyReadHeader_reads dev.sd slot faults
  unfold smpHistoryAppend
  split
  · exact ⟨EspErr.noConfusion, rfl, rfl, rfl⟩
  split
  · exact ⟨EspErr.noConfusion, rfl, rfl, rfl⟩
  · next hsd =>
    split
    · exact ⟨EspErr.noConfusion, rfl, rfl, rfl⟩
    cases hread : historyReadHeader dev.sd slot faults with
    | error err =>
      rw [hread] at hreads
      exact ⟨hreads, rfl, rfl, rfl⟩
    | ok found =>
      rw [hread] at hreads
      obtain ⟨hlock, hheader⟩ := hreads
      cases hfirst : faults.cpu with
      | some err => exact ⟨fun herr => hcpu (hfirst.trans (congrArg some herr)), rfl, rfl, rfl⟩
      | none =>
        have hwrite : faults.lock₂ = false ∨ faults.openWrite = false := by
          rcases hrefused with h | h | ⟨hopen, hfile, h⟩ | h | h | h
          · rw [h] at hsd
            exact absurd rfl hsd
          · exact nomatch hlock.symm.trans h
          · exact nomatch (hheader hopen hfile).symm.trans h
          · exact absurd hfirst h
          · exact .inl h
          · exact .inr h
        simp only [historyWritePass]
        rcases hwrite with hlock₂ | hopen
        · rw [hlock₂]
          exact ⟨EspErr.noConfusion, rfl, trivial, trivial⟩
        · rw [hopen]
          by_cases hlock₂ : faults.lock₂ = true
          · rw [if_pos hlock₂]
            exact ⟨EspErr.noConfusion, rfl, trivial, trivial⟩
          · rw [if_neg hlock₂]
            exact ⟨EspErr.noConfusion, rfl, trivial, trivial⟩

/-- Counters that say there are messages are those of the header. -/
theorem smpHistoryGetCounts_total {faults : CountFaults} {total unread : UInt16}
    (h : smpHistoryGetCounts dev slot faults = (.ok, some (total, unread))) (hpos : total > 0) :
    faults.reads = true ∧ ∃ file header, dev.sd (historyBuildPath slot) = some file ∧
      HistoryHeader.read file = some header ∧ total = header.msgCount := by
  obtain ⟨lock, openRead, readHeader⟩ := faults
  have hnone : (EspErr.ok, some ((0 : UInt16), (0 : UInt16))) ≠ (.ok, some (total, unread)) := by
    rintro ⟨⟩
    exact absurd hpos (by decide)
  unfold smpHistoryGetCounts at h
  split at h
  · cases h
  split at h
  · cases h
  cases lock with
  | false => cases h
  | true =>
    cases openRead with
    | false => exact absurd h hnone
    | true =>
      cases hfile : dev.sd (historyBuildPath slot) with
      | none =>
        simp only [hfile] at h
        exact absurd h hnone
      | some file =>
        simp only [hfile] at h
        cases readHeader with
        | false => cases h
        | true =>
          cases hread : HistoryHeader.read file with
          | none =>
            simp only [hread, if_true] at h
            cases h
          | some header =>
            simp only [hread, if_true] at h
            cases h
            exact ⟨rfl, file, header, rfl, hread, rfl⟩

/-- An update that does not look at the header leaves the device. -/
theorem historyUpdateHeader_not_reads (change : HistoryHeader → Option HistoryHeader)
    {faults : UpdateFaults} (h : faults.reads = false) :
    (historyUpdateHeader change dev slot faults).1 = dev := by
  obtain ⟨lock, openUpdate, readHeader, seekStart, headerLanded⟩ := faults
  unfold historyUpdateHeader
  split
  · rfl
  split
  · rfl
  cases lock with
  | false => rfl
  | true =>
    cases openUpdate with
    | false => rfl
    | true =>
      cases readHeader with
      | false => cases dev.sd (historyBuildPath slot) <;> rfl
      | true => cases h

end Device

/-! ### The invariant -/

namespace MarkedHistory

/-- The messages of the log. -/
def messages (s : MarkedHistory K) : List HistoryMessage := s.log.map Prod.fst

/-- A file that stores the log, with a mark on a record of it that is sound. -/
structure KeepsMark (H : HistoryOpening K) (slot : UInt8) (s : MarkedHistory K)
    (header : HistoryHeader) : Prop where
  keeps : KeepsLog H.toHistoryPrimitives s.dev slot header s.messages
  version : header.version = historyVersion
  mark_lt : header.lastDeliveredIdx.toNat < s.log.length
  covers : ∀ k ≤ header.lastDeliveredIdx.toNat, ∀ id, s.sentId k = some id →
    ∃ j ≥ k, ∃ id', s.sentId j = some id' ∧ s.Confirmed id'
  risen : ∀ k ≤ header.lastDeliveredIdx.toNat, ∀ record ∈ s.log[k]?,
    record.1.direction = historyDirSent → record.1.deliveryStatus < 2 →
      ∃ index ∈ s.covered, k ≤ index.toNat

/-- The device runs, and the slot has no file, and no messages, or one with a sound mark. -/
structure MarkInv (H : HistoryOpening K) (slot : UInt8) (s : MarkedHistory K) : Prop where
  initialized : s.dev.initialized = true
  stored : (s.dev.sd (historyBuildPath slot) = none ∧ s.log = []) ∨
    ∃ header, s.KeepsMark H slot header

variable {H : HistoryOpening K} {slot : UInt8} {s s' : MarkedHistory K}

/-- Confirmations stay. -/
theorem Confirmed.mono {id : UInt64} (h : s.Confirmed id)
    (hreceipts : ∀ body ∈ s.receipts, body ∈ s'.receipts) : s'.Confirmed id := by
  obtain ⟨body, hbody, hid⟩ := h
  exact ⟨body, hreceipts body hbody, hid⟩

/-- The card and the log stay as they are. -/
theorem MarkInv.of_frame (h : s.MarkInv H slot) (hsd : s'.dev.sd = s.dev.sd)
    (hkey : s'.dev.masterKey = s.dev.masterKey) (hinit : s'.dev.initialized = s.dev.initialized)
    (hlog : s'.log = s.log) (hreceipts : ∀ body ∈ s.receipts, body ∈ s'.receipts)
    (hcovered : ∀ index ∈ s.covered, index ∈ s'.covered) : s'.MarkInv H slot where
  initialized := hinit.trans h.initialized
  stored := by
    rcases h.stored with ⟨hnone, hempty⟩ | ⟨header, hkeeps⟩
    · exact .inl ⟨by rw [hsd, hnone], hlog.trans hempty⟩
    · obtain ⟨⟨_, hslot, hmagic, hcount, hfile⟩, hversion, hlt, hcovers, hrisen⟩ := hkeeps
      have hmessages : s'.messages = s.messages := by rw [messages, hlog, messages]
      have hids : s'.sentId = s.sentId := by
        funext k
        rw [sentId, hlog, sentId]
      refine .inr ⟨header, ⟨hinit.trans h.initialized, hslot, hmagic, by rw [hmessages, hcount],
        by rw [hsd, hkey, hmessages, hfile]⟩, hversion, by rwa [hlog], ?_, ?_⟩
      · intro k hk id hid
        rw [hids] at hid
        obtain ⟨j, hj, id', hid', hconfirmed⟩ := hcovers k hk id hid
        exact ⟨j, hj, id', by rwa [hids], hconfirmed.mono hreceipts⟩
      · intro k hk record hrecord hdirection hstatus
        rw [hlog] at hrecord
        obtain ⟨index, hindex, hle⟩ := hrisen k hk record hrecord hdirection hstatus
        exact ⟨index, hcovered index hindex, hle⟩

/-- A refused append changes nothing that counts. -/
theorem MarkInv.append_refused (h : s.MarkInv H slot) {msg : HistoryMessage}
    {msgId : Option UInt64} {faults : AppendFaults}
    (hrefused : faults.Refused (s.dev.sd (historyBuildPath slot))) :
    (s.append H.toHistoryPrimitives slot msg msgId faults).MarkInv H slot := by
  obtain ⟨hfails, hsd, hkey, hinit⟩ := smpHistoryAppend_refused H.toHistoryPrimitives msg hrefused
  exact h.of_frame hsd hkey hinit (if_neg hfails) (fun _ => id) fun _ => id

/-- A stored message is beyond the mark, unless it is the first one, which must not be a sent
one that waits for a receipt. -/
theorem MarkInv.append_stored (h : s.MarkInv H slot) (hslot : slot < 128) {msg : HistoryMessage}
    {msgId : Option UInt64} {faults : AppendFaults} (hclean : faults.Clean msg)
    (hroom : s.log.length + 1 < 65536)
    (hfirst : s.log = [] → msgId = none ∧
      ¬ (msg.direction = historyDirSent ∧ msg.deliveryStatus < 2)) :
    (s.append H.toHistoryPrimitives slot msg msgId faults).MarkInv H slot := by
  have hlen : s.messages.length = s.log.length := List.length_map ..
  rcases h.stored with ⟨hnone, hempty⟩ | ⟨header, hkeeps⟩
  · obtain ⟨hafter, hok⟩ := smpHistoryAppend_new H.toHistoryPrimitives h.initialized hslot
      hclean.reaches (hclean.written_plaintext true _) (by rw [hnone, ite_self])
    have hkeeps : KeepsLog H.toHistoryPrimitives _ slot _ ([] ++ [msg]) :=
      AppendedTo.keepsLog hafter h.initialized hslot rfl rfl (by decide)
    have hlog : (s.append H.toHistoryPrimitives slot msg msgId faults).log = [(msg, msgId)] := by
      rw [append, if_pos hok, hempty, List.nil_append]
    obtain ⟨hid, hmsg⟩ := hfirst hempty
    refine ⟨hkeeps.initialized,
      .inr ⟨(HistoryHeader.fresh slot).counted msg.direction, ?_, rfl, ?_, ?_, ?_⟩⟩
    · rw [messages, hlog]
      exact hkeeps
    · rw [hlog]
      exact Nat.one_pos
    · intro k hk id hsent
      obtain rfl := Nat.le_zero.mp hk
      rw [sentId, hlog, hid] at hsent
      cases hsent
    · intro k hk record hrecord hdirection hstatus
      obtain rfl := Nat.le_zero.mp hk
      rw [hlog] at hrecord
      obtain rfl := Option.some.inj hrecord
      exact absurd ⟨hdirection, hstatus⟩ hmsg
  · obtain ⟨hkeeps, hversion, hlt, hcovers, hrisen⟩ := hkeeps
    have hok := (smpHistoryAppend_file H.toHistoryPrimitives h.initialized hslot hclean.reaches
      hclean.openRead (hclean.written_plaintext false header.version) hkeeps.file hkeeps.magic).2
    have hlog : (s.append H.toHistoryPrimitives slot msg msgId faults).log =
        s.log ++ [(msg, msgId)] := if_pos hok
    have hafter := hkeeps.append hclean (by rwa [hlen])
    have hbelow : ∀ k ≤ header.lastDeliveredIdx.toNat,
        (s.log ++ [(msg, msgId)])[k]? = s.log[k]? :=
      fun k hk => List.getElem?_append_left (by omega)
    refine ⟨hafter.initialized,
      .inr ⟨header.counted msg.direction, ?_, hversion, ?_, ?_, ?_⟩⟩
    · rw [messages, hlog, List.map_append]
      exact hafter
    · rw [hlog, List.length_append]
      exact Nat.lt_add_right 1 hlt
    · intro k hk id hsent
      rw [sentId, hlog, hbelow k hk] at hsent
      obtain ⟨j, hj, id', hsent', hconfirmed⟩ := hcovers k hk id hsent
      refine ⟨j, hj, id', ?_, hconfirmed⟩
      have hin : j < s.log.length := by
        by_contra hout
        rw [sentId, List.getElem?_eq_none (Nat.not_lt.mp hout)] at hsent'
        cases hsent'
      rw [sentId, hlog, List.getElem?_append_left hin]
      exact hsent'
    · intro k hk record hrecord
      rw [hlog, hbelow k hk] at hrecord
      exact hrisen k hk record hrecord

/-- An append that is refused or stored right. -/
theorem MarkInv.append (h : s.MarkInv H slot) (hslot : slot < 128) {msg : HistoryMessage}
    {msgId : Option UInt64} {faults : AppendFaults} (hstores : s.StoresRight slot msg faults)
    (hfirst : s.log = [] → faults.Refused (s.dev.sd (historyBuildPath slot)) ∨ msgId = none ∧
      ¬ (msg.direction = historyDirSent ∧ msg.deliveryStatus < 2)) :
    (s.append H.toHistoryPrimitives slot msg msgId faults).MarkInv H slot := by
  by_cases hrefused : faults.Refused (s.dev.sd (historyBuildPath slot))
  · exact h.append_refused hrefused
  · obtain ⟨hclean, hroom⟩ := hstores.resolve_left hrefused
    exact h.append_stored hslot hclean hroom fun hempty => (hfirst hempty).resolve_left hrefused

/-- There is a last sent message from a sent one on. -/
theorem exists_last_sent (s : MarkedHistory K) {k : ℕ} {id : UInt64} (h : s.sentId k = some id) :
    ∃ j ≥ k, ∃ id', s.sentId j = some id' ∧ ∀ i > j, s.sentId i = none := by
  by_cases hlater : ∃ i > k, s.sentId i ≠ none
  · obtain ⟨i, hi, hsome⟩ := hlater
    obtain ⟨id', hid'⟩ := Option.ne_none_iff_exists'.mp hsome
    have hin : i < s.log.length := by
      by_contra hout
      rw [sentId, List.getElem?_eq_none (Nat.not_lt.mp hout)] at hid'
      cases hid'
    obtain ⟨j, hj, hlast⟩ := exists_last_sent s hid'
    exact ⟨j, by omega, hlast⟩
  · exact ⟨k, Nat.le_refl k, id, h, fun i hi => by
      by_contra hsome
      exact hlater ⟨i, hi, hsome⟩⟩
termination_by s.log.length - k

/-- The mark is moved to the last message, and the last sent message is confirmed. -/
theorem KeepsMark.raised {header : HistoryHeader} (h : s.KeepsMark H slot header)
    {body : List UInt8} (hlast : s.LastConfirmed body) {faults : UpdateFaults}
    (hclean : faults.Clean) (hpos : header.msgCount > 0) :
    MarkInv H slot { s with
      dev := (smpHistoryUpdateDelivered s.dev slot (header.msgCount - 1) faults).1
      receipts := s.receipts ++ [body]
      covered := s.covered ++ [header.msgCount - 1] } := by
  have hcount : (header.msgCount - 1).toNat = s.log.length - 1 := by
    have hone : 1 ≤ header.msgCount := UInt16.le_iff_toNat_le.mpr (UInt16.lt_iff_toNat_lt.mp hpos)
    rw [UInt16.toNat_sub_of_le _ _ hone, h.keeps.msgCount, messages, List.length_map]
    rfl
  have hold : MarkInv H slot s := ⟨h.keeps.initialized, .inr ⟨header, h⟩⟩
  rw [smpHistoryUpdateDelivered,
    historyUpdateHeader_file h.keeps.initialized h.keeps.slot_lt hclean h.keeps.file]
  by_cases hrises : header.msgCount - 1 > header.lastDeliveredIdx
  · rw [if_pos hrises]
    refine ⟨h.keeps.initialized,
      .inr ⟨{ header with lastDeliveredIdx := header.msgCount - 1 }, ?_, h.version, ?_, ?_, ?_⟩⟩
    · refine ⟨h.keeps.initialized, h.keeps.slot_lt, h.keeps.magic, h.keeps.msgCount, ?_⟩
      exact Store.put_self _ _ _
    · change (header.msgCount - 1).toNat < s.log.length
      have hlt := h.mark_lt
      omega
    · intro k _ id hsent
      obtain ⟨j, hj, id', hsent', hnone⟩ := s.exists_last_sent hsent
      refine ⟨j, hj, id', hsent', ?_⟩
      rcases hlast j id' hsent' hnone with hconfirmed | hconfirms
      · exact hconfirmed.mono fun _ hearlier => List.mem_append_left _ hearlier
      · exact ⟨body, List.mem_append_right _ (List.mem_singleton.mpr rfl), hconfirms⟩
    · intro k hk record _ _ _
      exact ⟨header.msgCount - 1, List.mem_append_right _ (List.mem_singleton.mpr rfl), hk⟩
  · rw [if_neg hrises]
    exact hold.of_frame rfl rfl rfl rfl (fun _ hearlier => List.mem_append_left _ hearlier)
      fun _ hearlier => List.mem_append_left _ hearlier

/-- A receipt: when it moves the mark, the last sent message is confirmed. -/
theorem MarkInv.receipt (h : s.MarkInv H slot) {body : List UInt8}
    {countFaults : CountFaults} {faults : UpdateFaults}
    (hop : (MarkOp.receipt body countFaults faults).MarksRight slot s) :
    (s.receipt slot body countFaults faults).MarkInv H slot := by
  rw [MarkedHistory.receipt]
  by_cases hbody : isReceipt body = true
  · rw [if_pos hbody]
    have hheard : MarkInv H slot { s with receipts := s.receipts ++ [body] } :=
      h.of_frame rfl rfl rfl rfl (fun _ hearlier => List.mem_append_left _ hearlier) fun _ => id
    dsimp only
    split
    · next total unread hcounts =>
      by_cases hpos : total > 0
      · rw [if_pos hpos]
        by_cases hreads : faults.reads = true
        · obtain ⟨hcounted, file, header, hfile, hheader, rfl⟩ :=
            smpHistoryGetCounts_total hcounts hpos
          obtain ⟨hclean, hlast⟩ := hop hbody hcounted hreads
          rw [if_pos hreads]
          rcases h.stored with ⟨hnone, -⟩ | ⟨header', hkeeps⟩
          · exact nomatch hfile.symm.trans hnone
          · obtain rfl := Option.some.inj (hfile.symm.trans hkeeps.keeps.file)
            rw [historyFile, HistoryHeader.read_encode_append] at hheader
            obtain rfl := Option.some.inj hheader
            exact hkeeps.raised hlast hclean hpos
        · rw [if_neg hreads, smpHistoryUpdateDelivered,
            historyUpdateHeader_not_reads _ (Bool.eq_false_iff.mpr hreads)]
          exact hheard
      · rw [if_neg hpos]
        exact hheard
    · exact hheard
  · rw [if_neg hbody]
    exact h

/-- Every operation that meets its condition keeps the mark sound. -/
theorem MarkInv.step (h : s.MarkInv H slot) (hslot : slot < 128) {op : MarkOp}
    (hop : op.MarksRight slot s) : (s.step H.toHistoryPrimitives slot op).MarkInv H slot := by
  cases op with
  | send text timestamp outcome faults =>
    cases outcome with
    | inactive => exact h
    | sent msgId => exact h.append hslot hop.1 fun hempty => .inl (hop.2 hempty)
    | failed =>
      exact h.append hslot hop fun _ => .inr ⟨rfl, fun hsent =>
        absurd hsent.2 (show ¬ historyStatusFailed < 2 by decide)⟩
  | receive text timestamp faults =>
    exact h.append hslot hop fun _ => .inr ⟨rfl, fun hsent =>
      absurd hsent.1 (show historyDirReceived ≠ historyDirSent by decide)⟩
  | receipt body countFaults faults => exact h.receipt hop

/-- What is shown of a record as delivered is stored so, or the mark covers it. -/
theorem KeepsMark.shown {header : HistoryHeader} (h : s.KeepsMark H slot header) {k : ℕ}
    {msg : HistoryMessage} (hmsg : s.messages[k]? = some msg)
    (hdirection : (msg.shown header (UInt16.ofNat k)).direction = historyDirSent)
    (hdelivered : (msg.shown header (UInt16.ofNat k)).deliveryStatus = 1) :
    (∃ record ∈ s.log[k]?, record.1.deliveryStatus = 1) ∨
      ∃ index ∈ s.covered, k ≤ index.toNat := by
  obtain ⟨record, hrecord, rfl⟩ := Option.map_eq_some_iff.mp (List.getElem?_map .. ▸ hmsg)
  have hlt : k < s.log.length := (List.getElem?_eq_some_iff.mp hrecord).1
  have hindex : (UInt16.ofNat k).toNat = k := by
    have hcount := h.keeps.msgCount
    have hbound := header.msgCount.toNat_lt
    rw [messages, List.length_map] at hcount
    exact UInt16.toNat_ofNat_of_lt' (show k < 65536 by omega)
  have hstatus : (if header.version ≥ 2 then record.1.deliveryStatus else 0) =
      record.1.deliveryStatus := by
    rw [h.version, if_pos (by decide)]
  rw [HistoryMessage.shown, hstatus] at hdelivered
  by_cases hmarked : record.1.direction = historyDirSent ∧
      UInt16.ofNat k ≤ header.lastDeliveredIdx ∧ record.1.deliveryStatus < 2
  · obtain ⟨-, hle, hsent⟩ := hmarked
    rw [UInt16.le_iff_toNat_le, hindex] at hle
    exact .inr (h.risen k hle record hrecord hdirection hsent)
  · exact .inl ⟨record, hrecord, (if_neg hmarked).symm.trans hdelivered⟩

/-- The invariant says that the mark is sound. -/
theorem MarkInv.markSound (h : s.MarkInv H slot) : s.MarkSound H slot := by
  rcases h.stored with ⟨hnone, -⟩ | ⟨header, hkeeps⟩
  · refine ⟨fun mark hmark => ?_, fun count faults heap i shown hshown => ?_⟩
    · rw [historyMark, hnone] at hmark
      cases hmark
    · rw [smpHistoryLoadRecent_no_file H hnone] at hshown
      cases hshown
  · refine ⟨fun mark hmark => ?_, fun count faults heap i shown hshown hdirection hdelivered => ?_⟩
    · rw [historyMark, hkeeps.keeps.file, Option.bind_some, historyFile,
        HistoryHeader.read_encode_append] at hmark
      obtain rfl := Option.some.inj hmark
      exact hkeeps.covers
    · obtain ⟨msg, hmsg, rfl⟩ := (hkeeps.keeps.showsRun count faults heap).getElem? hshown
      rw [messages, List.length_map] at hmsg hdirection hdelivered
      exact hkeeps.shown hmsg hdirection hdelivered

/-- A slot without history has no mark. -/
theorem markInv_start (H : HistoryOpening K) {dev : HistoryDevice K} {slot : UInt8}
    (hinit : dev.initialized = true) (hnone : dev.sd (historyBuildPath slot) = none) :
    (start dev).MarkInv H slot :=
  ⟨hinit, .inl ⟨hnone, rfl⟩⟩

end MarkedHistory

/-- The delivered mark is sound. In every run from a slot without history in which the card refuses
an operation or does it and the counter has room, no sent message is stored as the first record of
the history, and a receipt that moves the mark comes when the last sent message is confirmed: the
mark covers no sent message but those that are confirmed or precede one that is, and a sent message
is loaded as delivered only if it was stored so or a receipt moved the mark up to it. -/
theorem delivered_mark_sound (H : HistoryOpening K) {dev : HistoryDevice K} {slot : UInt8}
    (hslot : slot < 128) (hinit : dev.initialized = true)
    (hnone : dev.sd (historyBuildPath slot) = none) {ops : List MarkOp}
    (hops : StepsMeet (MarkedHistory.step H.toHistoryPrimitives slot)
      (fun s op => op.MarksRight slot s) (MarkedHistory.start dev) ops) :
    (runFrom (MarkedHistory.step H.toHistoryPrimitives slot) (MarkedHistory.start dev)
      ops).MarkSound H slot :=
  (hops.invariant (fun _ _ hinv hop => MarkedHistory.MarkInv.step hinv hslot hop)
    (MarkedHistory.markInv_start H hinit hnone)).markSound

/-! ### A receipt that comes late -/

/-- A payload of one receipt confirms the message it names and no other. -/
theorem confirms_iff_of_one {body : List UInt8} {r : ReceiptEntry}
    (h : body.drop (innerOffset body) = receiptsPayload [r]) (id : UInt64) :
    Confirms body id ↔ id = r.msgId := by
  constructor
  · rintro ⟨rs, hcount, hpayload, found, hfound, rfl⟩
    rw [h, receiptsPayload, receiptsPayload] at hpayload
    obtain ⟨hlen, hentries⟩ := List.cons_eq_cons.mp (List.cons_eq_cons.mp hpayload).2
    have hone : rs.length = 1 := by
      have hbyte := congrArg UInt8.toNat hlen
      rw [toNat_ofNat_mod, toNat_ofNat_mod, List.length_singleton] at hbyte
      omega
    obtain ⟨r', rfl⟩ := List.length_eq_one_iff.mp hone
    obtain rfl := List.mem_singleton.mp hfound
    rw [List.flatMap_singleton, List.flatMap_singleton, ReceiptEntry.encode,
      ReceiptEntry.encode] at hentries
    have hids := (List.append_inj hentries (by rw [Lib.be64_length, Lib.be64_length])).1
    rw [← bigEndian64_be64 found.msgId, ← hids, bigEndian64_be64]
  · rintro rfl
    exact ⟨[r], Nat.le_add_left 1 254, h, r, List.mem_singleton.mpr rfl, rfl⟩

/-- A card on which nothing is stored. -/
def blankCard : HistoryDevice (List UInt8 × List UInt8) :=
  { HistoryDevice.blank with initialized := true }

/-- The receipt for one message. -/
def sampleReceiptBody (id : UInt64) : List UInt8 :=
  agentMessage 2 (zeroBytes 32) (receiptsPayload [sampleReceipt id])

/-- A message comes, two are sent, and a receipt for one of them comes. -/
def lateReceiptRun (id : UInt64) : List MarkOp :=
  [.receive [0x68] 0 .none, .send [0x68] 0 (.sent 5) .none, .send [0x68] 0 (.sent 6) .none,
    .receipt (sampleReceiptBody id) ⟨true, true, true⟩ ⟨true, true, true, true, 32⟩]

/-- The state before the receipt. -/
def lateReceiptState : MarkedHistory (List UInt8 × List UInt8) :=
  runFrom (MarkedHistory.step symbolicHistory 0) (MarkedHistory.start blankCard)
    ((lateReceiptRun 6).take 3)

/-- The ids of the sent messages in a log. -/
theorem MarkedHistory.sentId_eq (s : MarkedHistory K) (k : ℕ) :
    s.sentId k = ((s.log.map Prod.snd)[k]?).join := by
  rw [sentId, List.getElem?_map]
  cases s.log[k]? <;> rfl

set_option maxRecDepth 8192 in
/-- Two messages were sent, with the ids 5 and 6. -/
theorem lateReceiptState_ids : lateReceiptState.log.map Prod.snd = [none, some 5, some 6] := by
  decide

/-- The receipt names the message it is for. -/
theorem confirms_sampleReceiptBody (id id' : UInt64) :
    Confirms (sampleReceiptBody id) id' ↔ id' = id := by
  refine @confirms_iff_of_one (sampleReceiptBody id) (sampleReceipt id) ?_ id'
  obtain ⟨header, heq, hoffset, -⟩ :=
    innerOffset_agentMessage 2 (zeroBytes 32) (receiptsPayload [sampleReceipt id])
  rw [sampleReceiptBody, hoffset, heq, List.drop_left]

/-- The last message that was sent has the id 6. -/
theorem lateReceiptState_last {k : ℕ} {id : UInt64} (hsent : lateReceiptState.sentId k = some id)
    (hlast : ∀ j > k, lateReceiptState.sentId j = none) : id = 6 := by
  have hsecond : lateReceiptState.sentId 2 = some 6 := by
    rw [MarkedHistory.sentId_eq, lateReceiptState_ids]
    rfl
  have hle : 2 ≤ k := by
    by_contra hlt
    exact nomatch (hlast 2 (Nat.lt_of_not_le hlt)).symm.trans hsecond
  rcases Nat.eq_or_lt_of_le hle with rfl | hlt
  · exact Option.some.inj (hsent.symm.trans hsecond)
  · rw [MarkedHistory.sentId_eq, lateReceiptState_ids,
      List.getElem?_eq_none (show [none, some (5 : UInt64), some 6].length ≤ k from hlt)] at hsent
    cases hsent

set_option maxRecDepth 8192 in
/-- When the receipt is for the last message, the mark is sound. -/
theorem delivered_mark_sound_last :
    (runFrom (MarkedHistory.step symbolicHistory 0) (MarkedHistory.start blankCard)
      (lateReceiptRun 6)).MarkSound symbolicOpening 0 :=
  delivered_mark_sound symbolicOpening (by decide) rfl rfl
    ⟨.inr ⟨AppendFaults.none_clean_text _ _ _ _, by decide⟩,
      ⟨.inr ⟨AppendFaults.none_clean_text _ _ _ _, by decide⟩,
        fun hempty => absurd (congrArg List.length hempty) (by decide)⟩,
      ⟨.inr ⟨AppendFaults.none_clean_text _ _ _ _, by decide⟩,
        fun hempty => absurd (congrArg List.length hempty) (by decide)⟩,
      fun _ _ _ => ⟨⟨rfl, rfl, rfl, rfl, by decide⟩, fun k id hsent hlast =>
        .inr ((confirms_sampleReceiptBody 6 id).mpr (lateReceiptState_last hsent hlast))⟩,
      trivial⟩

set_option maxRecDepth 8192 in
/-- When it is for the message before, the last one is marked as delivered too. -/
theorem delivered_mark_covers_unconfirmed :
    ¬ ∀ ops : List MarkOp, (runFrom (MarkedHistory.step symbolicHistory 0)
      (MarkedHistory.start blankCard) ops).MarkSound symbolicOpening 0 := by
  intro h
  have hmark : historyMark (runFrom (MarkedHistory.step symbolicHistory 0)
      (MarkedHistory.start blankCard) (lateReceiptRun 5)).dev 0 = some 2 := by
    decide
  have hids : (runFrom (MarkedHistory.step symbolicHistory 0) (MarkedHistory.start blankCard)
      (lateReceiptRun 5)).log.map Prod.snd = [none, some 5, some 6] := by
    decide
  have hreceipts : (runFrom (MarkedHistory.step symbolicHistory 0)
      (MarkedHistory.start blankCard) (lateReceiptRun 5)).receipts = [sampleReceiptBody 5] := by
    decide
  have hcovers := (h (lateReceiptRun 5)).covers
  generalize runFrom (MarkedHistory.step symbolicHistory 0) (MarkedHistory.start blankCard)
    (lateReceiptRun 5) = s at hmark hids hreceipts hcovers
  obtain ⟨j, hj, id, hsent, body, hbody, hconfirms⟩ := hcovers 2 hmark 2 (by decide) 6
    (by rw [s.sentId_eq, hids]; rfl)
  rw [hreceipts, List.mem_singleton] at hbody
  rw [hbody, confirms_sampleReceiptBody] at hconfirms
  rw [s.sentId_eq, hids, hconfirms] at hsent
  rcases Nat.eq_or_lt_of_le hj with rfl | hlt
  · exact absurd hsent (by decide)
  · rw [List.getElem?_eq_none (show [none, some (5 : UInt64), some 6].length ≤ j from hlt)] at hsent
    cases hsent

end SimpleGo
