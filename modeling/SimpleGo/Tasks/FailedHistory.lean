import SimpleGo.History.Atomicity
import SimpleGo.Tasks.FailedMessages

/-!
# Failed messages in the history

The records of the messages whose sending failed. Each slot of the card has a record for each
message appended to it, in order, and the record of a failed message says so; no later append,
receipt or load changes it, and a load shows a failed message as failed whatever the high-water
mark is.
-/

namespace SimpleGo

open Lib

variable {K : Type}

/-! ### What is shown of a record -/

/-- A shown message by its place in the log. -/
theorem getElem?_historyShown (header : HistoryHeader) (index k : ℕ) (log : List HistoryMessage) :
    (historyShown header index log)[k]? =
      log[k]?.map fun msg => msg.shown header (UInt16.ofNat (index + k)) := by
  induction log generalizing index k with
  | nil => rfl
  | cons msg log ih =>
    cases k with
    | zero => rfl
    | succ k =>
      rw [historyShown, List.getElem?_cons_succ, List.getElem?_cons_succ, ih, Nat.add_right_comm,
        Nat.add_assoc]

/-- A failed message is shown as failed whatever the high-water mark is. -/
theorem HistoryMessage.shown_failed {header : HistoryHeader}
    (hversion : header.version = historyVersion) (msgIdx : UInt16) {msg : HistoryMessage}
    (h : msg.deliveryStatus = historyStatusFailed) :
    (msg.shown header msgIdx).deliveryStatus = historyStatusFailed := by
  have hstatus : (if header.version ≥ 2 then msg.deliveryStatus else 0) = historyStatusFailed := by
    rw [hversion, if_pos (by decide), h]
  rw [shown, hstatus]
  exact if_neg fun hall => absurd hall.2.2 (by decide)

/-! ### The records of a slot -/

/-- A log has a message for each label; those of failed messages were sent, and say so. -/
structure LogHolds (labels : List (Option ℕ)) (failed : List ℕ) (log : List HistoryMessage) :
    Prop where
  length : log.length = labels.length
  failed : ∀ k : ℕ, ∀ message ∈ failed, labels[k]? = some (some message) →
    ∃ msg, log[k]? = some msg ∧ msg.direction = historyDirSent ∧
      msg.deliveryStatus = historyStatusFailed

section Logs

variable {labels : List (Option ℕ)} {failed failed' : List ℕ} {log : List HistoryMessage}

/-- A message fails that the log does not have. -/
theorem LogHolds.mono (h : LogHolds labels failed log)
    (hfailed : ∀ message ∈ failed', some message ∈ labels → message ∈ failed) :
    LogHolds labels failed' log where
  length := h.length
  failed := fun k message hmessage hk =>
    h.failed k message (hfailed message hmessage (List.mem_of_getElem? hk)) hk

/-- A message is appended; if it has failed, it says so. -/
theorem LogHolds.append (h : LogHolds labels failed log) {label : Option ℕ} {msg : HistoryMessage}
    (hnew : ∀ message ∈ label, message ∈ failed' →
      msg.direction = historyDirSent ∧ msg.deliveryStatus = historyStatusFailed)
    (hfailed : ∀ message ∈ failed', some message ∈ labels → message ∈ failed) :
    LogHolds (labels ++ [label]) failed' (log ++ [msg]) where
  length := by rw [List.length_append, List.length_append, h.length, List.length_singleton,
    List.length_singleton]
  failed := by
    intro k message hmessage hk
    by_cases hlt : k < labels.length
    · rw [List.getElem?_append_left hlt] at hk
      rw [List.getElem?_append_left (h.length ▸ hlt)]
      exact (h.mono hfailed).failed k message hmessage hk
    · have hlast : k = labels.length := by
        have hbound := (List.getElem?_eq_some_iff.mp hk).1
        rw [List.length_append, List.length_singleton] at hbound
        omega
      rw [hlast, List.getElem?_concat_length] at hk
      rw [hlast, ← h.length, List.getElem?_concat_length]
      exact ⟨msg, rfl, hnew message (Option.some.inj hk) hmessage⟩

end Logs

/-- A slot has a well-formed file with delivery statuses, which holds a log of the labels. -/
def KeepsLabels (H : HistoryOpening K) (dev : HistoryDevice K) (slot : UInt8)
    (labels : List (Option ℕ)) (failed : List ℕ) : Prop :=
  ∃ (header : HistoryHeader) (log : List HistoryMessage),
    KeepsLog H.toHistoryPrimitives dev slot header log ∧ header.version = historyVersion ∧
      LogHolds labels failed log

/-- A slot without messages has no file. -/
def SlotStored (H : HistoryOpening K) (dev : HistoryDevice K) (slot : UInt8)
    (labels : List (Option ℕ)) (failed : List ℕ) : Prop :=
  (dev.sd (historyBuildPath slot) = none ∧ labels = []) ∨ KeepsLabels H dev slot labels failed

section Slots

variable {H : HistoryOpening K} {dev dev' : HistoryDevice K} {slot : UInt8}
  {labels : List (Option ℕ)} {failed failed' : List ℕ}

/-- A message fails that the slot does not have. -/
theorem SlotStored.mono (h : SlotStored H dev slot labels failed)
    (hfailed : ∀ message ∈ failed', some message ∈ labels → message ∈ failed) :
    SlotStored H dev slot labels failed' :=
  h.imp id fun ⟨header, log, hkeeps, hversion, hholds⟩ =>
    ⟨header, log, hkeeps, hversion, hholds.mono hfailed⟩

/-- An operation on another slot leaves the file of a slot. -/
theorem SlotStored.of_frame (h : SlotStored H dev slot labels failed)
    (hfile : dev'.sd (historyBuildPath slot) = dev.sd (historyBuildPath slot))
    (hkey : dev'.masterKey = dev.masterKey) (hinit : dev'.initialized = dev.initialized) :
    SlotStored H dev' slot labels failed := by
  rcases h with ⟨hnone, hlabels⟩ | ⟨header, log, hkeeps, hversion, hholds⟩
  · exact Or.inl ⟨hfile.trans hnone, hlabels⟩
  · refine Or.inr ⟨header, log, ?_, hversion, hholds⟩
    exact ⟨hinit.trans hkeeps.initialized, hkeeps.slot_lt, hkeeps.magic, hkeeps.msgCount,
      by rw [hfile, hkey, hkeeps.file]⟩

/-- An append without faults adds a label to a slot that has room. -/
theorem SlotStored.append (h : SlotStored H dev slot labels failed)
    (hinit : dev.initialized = true) (hslot : slot < 128) {msg : HistoryMessage}
    {faults : AppendFaults} (hclean : faults.Clean msg) (hroom : labels.length + 1 < 65536)
    {label : Option ℕ} (hnew : ∀ message ∈ label, message ∈ failed' →
      msg.direction = historyDirSent ∧ msg.deliveryStatus = historyStatusFailed)
    (hfailed : ∀ message ∈ failed', some message ∈ labels → message ∈ failed) :
    KeepsLabels H (smpHistoryAppend H.toHistoryPrimitives dev slot msg faults).1 slot
      (labels ++ [label]) failed' := by
  rcases h with ⟨hnone, rfl⟩ | ⟨header, log, hkeeps, hversion, hholds⟩
  · obtain ⟨hafter, -⟩ := smpHistoryAppend_new H.toHistoryPrimitives hinit hslot hclean.reaches
      (hclean.written_plaintext true _) (by rw [hnone, ite_self])
    have hempty : LogHolds [] failed [] := ⟨rfl, nofun⟩
    have hkeeps : KeepsLog H.toHistoryPrimitives _ slot _ ([] ++ [msg]) :=
      AppendedTo.keepsLog hafter hinit hslot rfl rfl hroom
    exact ⟨_, _, hkeeps, rfl, hempty.append hnew hfailed⟩
  · have hroom' : log.length + 1 < 65536 := by rw [hholds.length]; exact hroom
    exact ⟨_, _, hkeeps.append hclean hroom', hversion, hholds.append hnew hfailed⟩

/-- A header update without faults that keeps what the log needs. -/
theorem SlotStored.update (h : SlotStored H dev slot labels failed)
    {change : HistoryHeader → Option HistoryHeader} {faults : UpdateFaults} (hclean : faults.Clean)
    (hchange : ∀ header, ∀ header' ∈ change header, header'.magic = header.magic ∧
      header'.version = header.version ∧ header'.msgCount = header.msgCount) :
    SlotStored H (historyUpdateHeader change dev slot faults).1 slot labels failed := by
  rcases h with ⟨hnone, hlabels⟩ | ⟨header, log, hkeeps, hversion, hholds⟩
  · rw [historyUpdateHeader_no_file change faults hnone]
    exact Or.inl ⟨hnone, hlabels⟩
  · rw [historyUpdateHeader_file hkeeps.initialized hkeeps.slot_lt hclean hkeeps.file]
    cases hheader : change header with
    | none => exact Or.inr ⟨header, log, hkeeps, hversion, hholds⟩
    | some header' =>
      obtain ⟨hmagic, hversion', hcount⟩ := hchange header header' hheader
      refine Or.inr ⟨header', log, ?_, hversion'.trans hversion, hholds⟩
      refine ⟨hkeeps.initialized, hkeeps.slot_lt, hmagic.trans hkeeps.magic,
        hcount ▸ hkeeps.msgCount, ?_⟩
      rw [historyFile, hversion']
      exact Store.put_self _ _ _

/-- A load of a slot gives nothing for a slot without messages, and a failed message as failed. -/
theorem SlotStored.load (h : SlotStored H dev slot labels failed) (hinit : dev.initialized = true)
    (hslot : slot < 128) {count : ℤ} (hmax : count ≤ historyMaxLoad) {faults : LoadFaults}
    (hclean : faults.Clean ((dev.sd (historyBuildPath slot)).getD []).length) (heap : Mem) :
    (labels = [] → (smpHistoryLoadRecent H dev slot count faults heap).2 = []) ∧
      ∀ k : ℕ, ∀ message ∈ failed, (labels.rtake count.toNat)[k]? = some (some message) →
        ∃ msg : HistoryMessage,
          (smpHistoryLoadRecent H dev slot count faults heap).2[k]? = some msg ∧
            msg.deliveryStatus = historyStatusFailed := by
  rcases h with ⟨hnone, rfl⟩ | ⟨header, log, hkeeps, hversion, hholds⟩
  · have hload : smpHistoryLoadRecent H dev slot count faults heap = (.ok, []) := by
      simp only [smpHistoryLoadRecent, hinit, hclean.sdAvailable, UInt8.not_le.mpr hslot,
        hclean.deriveKey, hclean.lock, hnone, ite_self, Bool.not_true, Bool.false_eq_true, if_false]
    rw [hload]
    refine ⟨fun _ => rfl, fun k message _ hk => ?_⟩
    rw [List.rtake, List.drop_nil] at hk
    cases hk
  · rw [hkeeps.file, Option.getD_some] at hclean
    by_cases hneg : count < 0
    · rw [smpHistoryLoadRecent_neg H hinit hslot hkeeps.file rfl hkeeps.msgCount hclean hneg heap,
        Int.toNat_of_nonpos (Int.le_of_lt hneg)]
      refine ⟨fun _ => rfl, fun k message _ hk => ?_⟩
      rw [List.rtake, Nat.sub_zero, List.drop_length] at hk
      cases hk
    · obtain ⟨n, rfl⟩ := Int.eq_ofNat_of_zero_le (Int.not_lt.mp hneg)
      rw [smpHistoryLoadRecent_records H hinit hslot hkeeps.file (List.append_nil _).symm
        hkeeps.msgCount hclean (Int.ofNat_le.mp hmax) heap, Int.toNat_natCast]
      refine ⟨fun hempty => ?_, fun k message hmessage hk => ?_⟩
      · have hlog := List.length_eq_zero_iff.mp (hholds.length.trans (congrArg List.length hempty))
        rw [hlog, historyShown, List.rtake, List.drop_nil]
      · rw [List.rtake, List.getElem?_drop] at hk
        obtain ⟨msg, hmsg, -, hstatus⟩ := hholds.failed _ message hmessage hk
        refine ⟨msg.shown header (UInt16.ofNat (labels.length - n + k)), ?_,
          msg.shown_failed hversion _ hstatus⟩
        rw [List.rtake, List.getElem?_drop, historyShown_length, hholds.length,
          getElem?_historyShown, hmsg, Nat.zero_add]
        rfl

end Slots

/-! ### The card -/

/-- The device runs, and each slot has the records of its labels. -/
structure SlotsStored (H : HistoryOpening K) (dev : HistoryDevice K)
    (logOf : UInt8 → List (Option ℕ)) (failed : List ℕ) : Prop where
  initialized : dev.initialized = true
  slots : ∀ slot < 128, SlotStored H dev slot (logOf slot) failed

namespace SlotsStored

variable {H : HistoryOpening K} {dev : HistoryDevice K} {logOf : UInt8 → List (Option ℕ)}
  {failed failed' : List ℕ}

/-- An append without faults to a slot that has room. -/
theorem append (h : SlotsStored H dev logOf failed) {slot : UInt8} (hslot : slot < 128)
    {msg : HistoryMessage} {faults : AppendFaults} (hclean : faults.Clean msg)
    (hroom : (logOf slot).length + 1 < 65536) {label : Option ℕ}
    (hnew : ∀ message ∈ label, message ∈ failed' →
      msg.direction = historyDirSent ∧ msg.deliveryStatus = historyStatusFailed)
    (hfailed : ∀ message ∈ failed', ∀ slot < 128, some message ∈ logOf slot → message ∈ failed) :
    SlotsStored H (smpHistoryAppend H.toHistoryPrimitives dev slot msg faults).1
      (Function.update logOf slot (logOf slot ++ [label])) failed' := by
  have hthis := (h.slots slot hslot).append h.initialized hslot hclean hroom hnew
    fun message hmessage => hfailed message hmessage slot hslot
  refine ⟨?_, fun slot' hslot' => ?_⟩
  · obtain ⟨header, log, hkeeps, -⟩ := hthis
    exact hkeeps.initialized
  · by_cases hsame : slot' = slot
    · rw [hsame, Function.update_self]
      exact Or.inr hthis
    · rw [Function.update_of_ne hsame]
      obtain ⟨hfile, hkey, hinit⟩ := smpHistoryAppend_frame H.toHistoryPrimitives dev
        (Ne.symm hsame) msg faults
      have hother := (h.slots slot' hslot').of_frame hfile hkey hinit
      exact hother.mono fun message hmessage => hfailed message hmessage slot' hslot'

/-- A header update without faults. -/
theorem update (h : SlotsStored H dev logOf failed) (slot : UInt8)
    {change : HistoryHeader → Option HistoryHeader} {faults : UpdateFaults} (hclean : faults.Clean)
    (hchange : ∀ header, ∀ header' ∈ change header, header'.magic = header.magic ∧
      header'.version = header.version ∧ header'.msgCount = header.msgCount) :
    SlotsStored H (historyUpdateHeader change dev slot faults).1 logOf failed := by
  refine ⟨?_, fun slot' hslot' => ?_⟩
  · rcases historyUpdateHeader_cases change dev slot faults with hsame | ⟨_, _, -, -, -, hput⟩
    · rw [hsame]
      exact h.initialized
    · rw [hput]
      exact h.initialized
  · by_cases hsame : slot' = slot
    · subst hsame
      exact (h.slots slot' hslot').update hclean hchange
    · obtain ⟨hfile, hkey, hinit⟩ := historyUpdateHeader_frame change dev (Ne.symm hsame) faults
      exact (h.slots slot' hslot').of_frame hfile hkey hinit

/-- A history is marked as read. -/
theorem markRead (h : SlotsStored H dev logOf failed) (slot : UInt8) {faults : UpdateFaults}
    (hclean : faults.Clean) :
    SlotsStored H (smpHistoryMarkRead dev slot faults).1 logOf failed := by
  refine h.update slot hclean fun header header' hheader => ?_
  obtain rfl := Option.some.inj hheader
  exact ⟨rfl, rfl, rfl⟩

/-- The high-water mark rises. -/
theorem updateDelivered (h : SlotsStored H dev logOf failed) (slot : UInt8) (msgIndex : UInt16)
    {faults : UpdateFaults} (hclean : faults.Clean) :
    SlotsStored H (smpHistoryUpdateDelivered dev slot msgIndex faults).1 logOf failed := by
  refine h.update slot hclean fun header header' hheader => ?_
  by_cases hrises : msgIndex > header.lastDeliveredIdx
  · rw [if_pos hrises] at hheader
    obtain rfl := Option.some.inj hheader
    exact ⟨rfl, rfl, rfl⟩
  · rw [if_neg hrises] at hheader
    cases hheader

end SlotsStored

namespace MessageTasks

/-- What holds of the card and the queue: the records of failed messages say so, and a message
in the queue has no record yet. -/
structure StoreInv (H : HistoryOpening K) (s : MessageTasks K) : Prop where
  slots : SlotsStored H s.dev s.logOf s.failed
  stored : ∀ message ∈ s.failed, ∃ slot < 128, some message ∈ s.logOf slot
  logged_lt : ∀ slot < 128, ∀ message, some message ∈ s.logOf slot →
    message < s.chat.sent.length
  queue_new : ∀ typed ∈ s.kbdQueue,
    typed.message ∉ s.failed ∧ ∀ slot < 128, some typed.message ∉ s.logOf slot
  queue_apart : s.kbdQueue.Pairwise fun typed later => typed.message ≠ later.message

variable {H : HistoryOpening K} {s s' : MessageTasks K}

/-- The chat changes, and no text is sent. -/
theorem StoreInv.congr (h : s.StoreInv H) (hdev : s'.dev = s.dev) (hlog : s'.logOf = s.logOf)
    (hfailed : s'.failed = s.failed) (hqueue : s'.kbdQueue = s.kbdQueue)
    (hsent : s'.chat.sent = s.chat.sent) : s'.StoreInv H where
  slots := by
    rw [hdev, hlog, hfailed]
    exact h.slots
  stored := by
    rw [hfailed, hlog]
    exact h.stored
  logged_lt := by
    rw [hlog, hsent]
    exact h.logged_lt
  queue_new := by
    rw [hqueue, hfailed, hlog]
    exact h.queue_new
  queue_apart := by
    rw [hqueue]
    exact h.queue_apart

/-- The user sends a text: its number is that of no record. -/
theorem StoreInv.typeText (h : s.StoreInv H) (hscreen : s.ScreenInv) (text : List UInt8)
    (room : Bool) : (s.typeText text room).StoreInv H := by
  unfold MessageTasks.typeText
  by_cases hskip : s.chat.screen = false ∨ text = []
  · rw [if_pos hskip]
    exact h
  · rw [if_neg hskip]
    have hready := hskip
    rw [not_or, Bool.not_eq_false] at hready
    have hsent : (s.chat.doSendMessage text room).sent.length = s.chat.sent.length + 1 := by
      rw [Chat.doSendMessage, if_neg hskip]
      have hadds := Chat.uiChatAddMessage_addsLive
        { s.chat with
          bubbles := s.chat.bubbles.chatBubbleNextSeq
          sent := s.chat.sent ++ [s.chat.bubbles.chatBubbleNextSeq.msgSeqCounter] }
        text true s.chat.activeContact (some s.chat.sent.length) room hready.1
      exact (congrArg List.length hadds.sent).trans List.length_append
    have hnew : s.chat.sent.length ∉ s.failed ∧
        ∀ slot < 128, some s.chat.sent.length ∉ s.logOf slot :=
      ⟨fun hmem => Nat.lt_irrefl _ (hscreen.failed_lt _ hmem),
        fun slot hslot hmem => Nat.lt_irrefl _ (h.logged_lt slot hslot _ hmem)⟩
    refine ⟨h.slots, h.stored, fun slot hslot message hmem => ?_, ?_, ?_⟩
    · dsimp only
      rw [hsent]
      exact Nat.lt_succ_of_lt (h.logged_lt slot hslot message hmem)
    · dsimp only
      by_cases hroom : s.kbdQueue.length < 4
      · rw [if_pos hroom]
        intro typed htyped
        rcases List.mem_append.mp htyped with htyped | htyped
        · exact h.queue_new typed htyped
        · rw [List.mem_singleton.mp htyped]
          exact hnew
      · rw [if_neg hroom]
        exact h.queue_new
    · dsimp only
      by_cases hroom : s.kbdQueue.length < 4
      · rw [if_pos hroom]
        refine List.pairwise_append.mpr ⟨h.queue_apart, List.pairwise_singleton _ _,
          fun typed htyped later hlater => ?_⟩
        rw [List.mem_singleton.mp hlater]
        exact Nat.ne_of_lt (hscreen.queue_lt typed htyped)
      · rw [if_neg hroom]
        exact h.queue_apart

/-- A message is appended to a slot; it may be one of the queue, and it may have failed. -/
theorem StoreInv.appendHistory (h : s.StoreInv H) {slot : UInt8} (hslot : slot < 128)
    {msg : HistoryMessage} {faults : AppendFaults} (hclean : faults.Clean msg)
    (hroom : (s.logOf slot).length + 1 < 65536) {label : Option ℕ}
    (hlt : ∀ message ∈ label, message < s.chat.sent.length)
    (hdev : s'.dev = (smpHistoryAppend H.toHistoryPrimitives s.dev slot msg faults).1)
    (hlog : s'.logOf = Function.update s.logOf slot (s.logOf slot ++ [label]))
    (hsent : s'.chat.sent = s.chat.sent)
    (hfailed : ∀ message ∈ s'.failed, message ∈ s.failed ∨ some message = label ∧
      (∀ slot < 128, some message ∉ s.logOf slot) ∧ msg.direction = historyDirSent ∧
        msg.deliveryStatus = historyStatusFailed)
    (hold : ∀ message ∈ label, message ∉ s.failed)
    (hqueue : ∀ typed ∈ s'.kbdQueue, typed ∈ s.kbdQueue ∧ some typed.message ≠ label)
    (hapart : s'.kbdQueue.Pairwise fun typed later => typed.message ≠ later.message) :
    s'.StoreInv H := by
  have hmem : ∀ slot' message, some message ∈ s'.logOf slot' →
      some message ∈ s.logOf slot' ∨ slot' = slot ∧ label = some message := by
    intro slot' message hmessage
    rw [hlog] at hmessage
    by_cases hsame : slot' = slot
    · rw [hsame, Function.update_self] at hmessage
      rcases List.mem_append.mp hmessage with hmessage | hmessage
      · exact Or.inl (hsame ▸ hmessage)
      · exact Or.inr ⟨hsame, (List.mem_singleton.mp hmessage).symm⟩
    · rw [Function.update_of_ne hsame] at hmessage
      exact Or.inl hmessage
  have hkept : ∀ slot' message, some message ∈ s.logOf slot' → some message ∈ s'.logOf slot' := by
    intro slot' message hmessage
    rw [hlog]
    by_cases hsame : slot' = slot
    · rw [hsame, Function.update_self]
      exact List.mem_append_left _ (hsame ▸ hmessage)
    · rw [Function.update_of_ne hsame]
      exact hmessage
  refine ⟨?_, fun message hmessage => ?_, fun slot' hslot' message hmessage => ?_,
    fun typed htyped => ?_, hapart⟩
  · rw [hdev, hlog]
    refine h.slots.append hslot hclean hroom (fun message hlabel hmessage => ?_)
      fun message hmessage slot' hslot' hlogged => ?_
    · rcases hfailed message hmessage with hmessage | ⟨-, -, hstored⟩
      · exact absurd hmessage (hold message hlabel)
      · exact hstored
    · rcases hfailed message hmessage with hmessage | ⟨-, hnew, -⟩
      · exact hmessage
      · exact absurd hlogged (hnew slot' hslot')
  · rcases hfailed message hmessage with hmessage | ⟨hlabel, -⟩
    · obtain ⟨slot', hslot', hlogged⟩ := h.stored message hmessage
      exact ⟨slot', hslot', hkept slot' message hlogged⟩
    · refine ⟨slot, hslot, ?_⟩
      rw [hlog, Function.update_self, hlabel]
      exact List.mem_append_right _ (List.mem_singleton_self _)
  · rw [hsent]
    rcases hmem slot' message hmessage with hmessage | ⟨-, hlabel⟩
    · exact h.logged_lt slot' hslot' message hmessage
    · exact hlt message hlabel
  · obtain ⟨htyped, hother⟩ := hqueue typed htyped
    obtain ⟨hplain, hunlogged⟩ := h.queue_new typed htyped
    refine ⟨fun hmessage => ?_, fun slot' hslot' hmessage => ?_⟩
    · rcases hfailed _ hmessage with hmessage | ⟨hlabel, -⟩
      · exact hplain hmessage
      · exact hother hlabel
    · rcases hmem slot' _ hmessage with hmessage | ⟨-, hlabel⟩
      · exact hunlogged slot' hslot' hmessage
      · exact hother hlabel.symm

/-- The App Task comes to a typed message: it gets a record, which says whether it failed. -/
theorem StoreInv.processKeyboard (h : s.StoreInv H) (hscreen : s.ScreenInv) {slot : UInt8}
    {outcome : SendOutcome} {timestamp : Int64} {faults : AppendFaults} {queued : Bool}
    (hop : s.ProcessesRight slot outcome timestamp faults queued) :
    (s.processKeyboard H.toHistoryPrimitives slot outcome timestamp faults queued).StoreInv H := by
  unfold MessageTasks.processKeyboard
  cases hqueue : s.kbdQueue with
  | nil => exact h
  | cons typed rest =>
    obtain ⟨hslot, hroom, hactive, hclean, -⟩ := hop typed (by rw [hqueue]; rfl)
    have hmem : typed ∈ s.kbdQueue := hqueue ▸ List.mem_cons_self
    obtain ⟨hplain, hunlogged⟩ := h.queue_new typed hmem
    have hlt := hscreen.queue_lt typed hmem
    obtain ⟨hothers, hapart⟩ := List.pairwise_cons.mp (hqueue ▸ h.queue_apart)
    have hlabel : ∀ message ∈ some typed.message, message < s.chat.sent.length ∧
        message ∉ s.failed := by
      intro message hmessage
      rw [← Option.some.inj hmessage]
      exact ⟨hlt, hplain⟩
    have hrest : ∀ later ∈ rest, later ∈ s.kbdQueue ∧ some later.message ≠ some typed.message :=
      fun later hlater => ⟨hqueue ▸ List.mem_cons_of_mem _ hlater,
        fun hsame => hothers later hlater (Option.some.inj hsame).symm⟩
    cases outcome with
    | inactive => exact absurd rfl hactive
    | sent msgId =>
      exact h.appendHistory hslot (hclean historyStatusSent) hroom
        (fun message hmessage => (hlabel message hmessage).1) rfl rfl rfl (fun _ => Or.inl)
        (fun message hmessage => (hlabel message hmessage).2) hrest hapart
    | failed =>
      refine h.appendHistory hslot (hclean historyStatusFailed) hroom
        (fun message hmessage => (hlabel message hmessage).1) rfl rfl rfl
        (fun message hmessage => ?_) (fun message hmessage => (hlabel message hmessage).2) hrest
        hapart
      rcases List.mem_append.mp hmessage with hmessage | hmessage
      · exact Or.inl hmessage
      · rw [List.mem_singleton.mp hmessage]
        exact Or.inr ⟨rfl, hunlogged, rfl, rfl⟩

/-- A received message gets a record. -/
theorem StoreInv.receive (h : s.StoreInv H) {slot : UInt8} (hslot : slot < 128)
    {text : List UInt8} {timestamp : Int64} {faults : AppendFaults}
    (hroom : (s.logOf slot).length + 1 < 65536)
    (hclean : faults.Clean (historyMessageOf historyDirReceived 0 timestamp text)) :
    (s.receive H.toHistoryPrimitives slot text timestamp faults).StoreInv H :=
  have hnone : ∀ message : ℕ, message ∉ (none : Option ℕ) := nofun
  h.appendHistory hslot hclean hroom (fun message hmessage => absurd hmessage (hnone message)) rfl
    rfl rfl (fun _ => Or.inl) (fun message hmessage => absurd hmessage (hnone message))
    (fun _ htyped => ⟨htyped, nofun⟩) h.queue_apart

/-- The ids of a receipt change the map of the messages and the events only. -/
theorem notifyReceipts_frame (queued : ℕ → Bool) (n : ℕ) (ids : List UInt64)
    (s : MessageTasks K) : ∃ msgMappings statusEvents, notifyReceipts queued n ids s =
      { s with msgMappings := msgMappings, statusEvents := statusEvents } := by
  induction ids generalizing s n with
  | nil => exact ⟨s.msgMappings, s.statusEvents, rfl⟩
  | cons msgId rest ih =>
    rw [notifyReceipts]
    by_cases hfound : (findSeqByMsgId msgId s.msgMappings).1 > 0
    · rw [if_pos hfound]
      exact ih (n + 1) _
    · rw [if_neg hfound]
      exact ih (n + 1) _

/-- A receipt raises the mark of a slot. -/
theorem StoreInv.receipt (h : s.StoreInv H) {slot : UInt8} (body : List UInt8)
    (queued : ℕ → Bool) (countFaults : CountFaults) {faults : UpdateFaults}
    (hclean : faults.Clean) : (s.receipt slot body queued countFaults faults).StoreInv H := by
  unfold MessageTasks.receipt
  by_cases htag : (hasInnerTag body 0x56 && decide (innerOffset body + 1 < body.length)) = true
  · rw [if_pos htag]
    obtain ⟨msgMappings, statusEvents, hnotified⟩ :=
      notifyReceipts_frame queued 0 (extractReceipts body) s
    rw [hnotified]
    have hkept : StoreInv H { s with msgMappings := msgMappings, statusEvents := statusEvents } :=
      h.congr rfl rfl rfl rfl rfl
    dsimp only
    split
    · next total unread hcounts =>
      by_cases hmore : total > 0
      · rw [if_pos hmore]
        exact ⟨hkept.slots.updateDelivered slot _ hclean, hkept.stored, hkept.logged_lt,
          hkept.queue_new, hkept.queue_apart⟩
      · rw [if_neg hmore]
        exact hkept
    · exact hkept
  · rw [if_neg htag]
    exact h

/-- A receipt, as far as the chat sees it. -/
theorem ScreenInv.receipt (h : s.ScreenInv) (slot : UInt8) (body : List UInt8)
    (queued : ℕ → Bool) (countFaults : CountFaults) (faults : UpdateFaults) :
    (s.receipt slot body queued countFaults faults).ScreenInv := by
  unfold MessageTasks.receipt
  by_cases htag : (hasInnerTag body 0x56 && decide (innerOffset body + 1 < body.length)) = true
  · rw [if_pos htag]
    have hnotified := h.notifyReceipts queued 0 (extractReceipts body)
    dsimp only
    split
    · next total unread hcounts =>
      by_cases hmore : total > 0
      · rw [if_pos hmore]
        exact hnotified.congr rfl rfl rfl rfl rfl
      · rw [if_neg hmore]
        exact hnotified
    · exact hnotified
  · rw [if_neg htag]
    exact h

/-- No history is loaded. -/
theorem StoreInv.noHistory (h : s.StoreInv H) : s.noHistory.StoreInv H :=
  h.congr rfl rfl rfl rfl (s.chat.step_sent (.historyBatch [] 0 false 0) fun _ _ => nofun)

/-- No history is loaded, as far as the chat sees it. -/
theorem ScreenInv.noHistory (h : s.ScreenInv) : s.noHistory.ScreenInv := by
  have hchat : s.noHistory.chat = s.chat.historyBatchEvent [] 0 false 0 := rfl
  exact h.historyBatch (fun _ hne => absurd rfl hne) hchat rfl rfl rfl rfl

/-- A history is loaded. -/
theorem StoreInv.reload (h : s.StoreInv H) (slot : UInt8) (faults : LoadFaults) (heap : Mem)
    {markFaults : UpdateFaults} (hmark : markFaults.Clean) (alloc : Bool) (freeSize : ℕ) :
    (s.reload H slot faults heap markFaults alloc freeSize).StoreInv H := by
  unfold MessageTasks.reload
  split
  · next loaded hload =>
    by_cases hempty : loaded.isEmpty = true
    · rw [if_pos hempty]
      exact h.noHistory
    · rw [if_neg hempty]
      have hsent := s.chat.step_sent
        (.historyBatch (loaded.map HistoryMessage.cached) slot.toNat alloc freeSize)
        fun _ _ => nofun
      have hchat : StoreInv H { s with
          chat := s.chat.step
            (.historyBatch (loaded.map HistoryMessage.cached) slot.toNat alloc freeSize) } :=
        h.congr rfl rfl rfl rfl hsent
      exact ⟨hchat.slots.markRead slot hmark, hchat.stored, hchat.logged_lt, hchat.queue_new,
        hchat.queue_apart⟩
  · exact h.noHistory

/-- A history is loaded, as far as the chat sees it: a slot without messages gives no batch. -/
theorem ScreenInv.reload (h : s.ScreenInv) (hstore : s.StoreInv H) {slot : UInt8}
    (hslot : slot < 128) {faults : LoadFaults}
    (hclean : faults.Clean ((s.dev.sd (historyBuildPath slot)).getD []).length) (heap : Mem)
    (markFaults : UpdateFaults) (alloc : Bool) (freeSize : ℕ)
    (hgone : s.chat.screen = true → s.logOf slot ≠ [] →
      ∀ b ∈ s.chat.bubbles.children, s.chat.bubbles.Untracked b) :
    (s.reload H slot faults heap markFaults alloc freeSize).ScreenInv := by
  have hnothing := ((hstore.slots.slots slot hslot).load hstore.slots.initialized hslot
    (Int.le_refl historyMaxLoad) hclean heap).1
  unfold MessageTasks.reload
  split
  · next loaded hload =>
    by_cases hempty : loaded.isEmpty = true
    · rw [if_pos hempty]
      exact h.noHistory
    · rw [if_neg hempty]
      refine h.historyBatch (fun hscreen _ => hgone hscreen fun hnil => ?_) rfl rfl rfl rfl rfl
      rw [hload] at hnothing
      exact hempty (List.isEmpty_iff.mpr (hnothing hnil))
  · exact h.noHistory

/-! ### Runs -/

/-- What holds between the operations. -/
structure FailedInv (H : HistoryOpening K) (s : MessageTasks K) : Prop where
  screen : s.ScreenInv
  store : s.StoreInv H

/-- It holds at start-up. -/
theorem failedInv_boot (H : HistoryOpening K) (masterKey : Bytes 32) :
    (boot masterKey : MessageTasks K).FailedInv H where
  screen := by
    have hidle : ∀ entry ∈ (boot masterKey : MessageTasks K).chat.bubbles.trackedMsgs,
        entry = ⟨none, 0, false⟩ := fun entry hentry => List.eq_of_mem_replicate hentry
    exact ⟨ChatBubbles.LabelsInv.blank 0 [], fun _ => rfl,
      List.pairwise_replicate.mpr (Or.inr fun hactive => nomatch hactive), nofun, nofun, nofun,
      nofun, nofun⟩
  store := ⟨⟨rfl, fun _ _ => Or.inl ⟨rfl, rfl⟩⟩, nofun, nofun, nofun, .nil⟩

/-- Every operation that meets its condition keeps it. -/
theorem FailedInv.step (h : s.FailedInv H) {op : MessageOp} (hop : op.KeepsFailed s) :
    (s.step H op).FailedInv H := by
  obtain ⟨hscreen, hstore⟩ := h
  cases op with
  | create => exact ⟨hscreen.create, hstore.congr rfl rfl rfl rfl rfl⟩
  | cleanup =>
    have hsent := s.chat.step_sent .cleanup fun _ _ => nofun
    exact ⟨hscreen.cleanup, hstore.congr rfl rfl rfl rfl hsent⟩
  | switchContact contactIdx =>
    have hsent := s.chat.step_sent (.switchContact contactIdx) fun _ _ => nofun
    exact ⟨hscreen.switchContact hop, hstore.congr rfl rfl rfl rfl hsent⟩
  | clearContact contactIdx =>
    have hsent := s.chat.step_sent (.clearContact contactIdx) fun _ _ => nofun
    exact ⟨hscreen.clearContact hop, hstore.congr rfl rfl rfl rfl hsent⟩
  | renderTick rooms =>
    have hsent := s.chat.step_sent (.renderTick rooms) fun _ _ => nofun
    exact ⟨hscreen.renderTick hop, hstore.congr rfl rfl rfl rfl hsent⟩
  | scroll nearTop nearBottom rooms =>
    have hsent := s.chat.step_sent (.scroll nearTop nearBottom rooms) fun _ _ => nofun
    exact ⟨hscreen.scroll hop.1 hop.2, hstore.congr rfl rfl rfl rfl hsent⟩
  | typeText text room => exact ⟨hscreen.typeText hop, hstore.typeText hscreen text room⟩
  | showMessage text contactIdx room =>
    have hsent := s.chat.step_sent (.addMessage text false contactIdx room) fun _ _ => nofun
    exact ⟨hscreen.showMessage hop, hstore.congr rfl rfl rfl rfl hsent⟩
  | handleStatusEvent =>
    refine ⟨hscreen.handleStatusEvent hop, ?_⟩
    rw [MessageTasks.step, MessageTasks.handleStatusEvent]
    cases s.statusEvents with
    | nil => exact hstore
    | cons event rest =>
      refine hstore.congr rfl rfl rfl rfl ?_
      dsimp only
      split_ifs <;> rfl
  | processKeyboard slot outcome timestamp faults queued =>
    exact ⟨hscreen.processKeyboard _ hop, hstore.processKeyboard hscreen hop⟩
  | receive slot text timestamp faults =>
    obtain ⟨hslot, hroom, hclean⟩ := hop
    exact ⟨hscreen.appendHistory _ _ _ _ _, hstore.receive hslot hroom hclean⟩
  | receipt slot body queued countFaults faults =>
    exact ⟨hscreen.receipt _ _ _ _ _, hstore.receipt body queued countFaults hop.2⟩
  | reload slot faults heap markFaults alloc freeSize =>
    obtain ⟨hslot, hclean, hmark, hgone⟩ := hop
    exact ⟨hscreen.reload hstore hslot hclean heap markFaults alloc freeSize hgone,
      hstore.reload slot faults heap hmark alloc freeSize⟩

/-- What holds between the operations says that failed messages stay failed. -/
theorem FailedInv.failedStay (h : s.FailedInv H) : s.FailedStay H where
  stored := by
    intro message hmessage
    obtain ⟨slot, hslot, hlogged⟩ := h.store.stored message hmessage
    obtain ⟨k, hk⟩ := List.mem_iff_getElem?.mp hlogged
    rcases h.store.slots.slots slot hslot with ⟨-, hnone⟩ | ⟨header, log, hkeeps, hversion, hholds⟩
    · rw [hnone] at hk
      cases hk
    · obtain ⟨msg, hmsg, hdirection, hstatus⟩ := hholds.failed k message hmessage hk
      exact ⟨slot, hslot, k, msg, hk, ⟨header, log, hkeeps.file, hversion, hmsg⟩, hdirection,
        hstatus⟩
  loaded := by
    intro slot hslot count hmax faults heap hclean k message hmessage hk
    exact ((h.store.slots.slots slot hslot).load h.store.slots.initialized hslot hmax hclean
      heap).2 k message hmessage hk
  shown := h.screen.shown

end MessageTasks

/-- Failed messages stay failed. In every run from the start-up in which the card works and has
room, the App Task comes to a message while its contact is active, and its label waits under
the last number if its sending fails, no label is deleted while it waits, no other status event
finds the label of a failed message, and no failed message is rendered from batch or cache: a
message whose sending failed is stored as failed, is loaded as failed whatever the high-water
mark is, and each of its bubbles shows the failed mark, at once or when its event is handled. -/
theorem failed_messages_stay_failed (H : HistoryOpening K) (masterKey : Bytes 32)
    {ops : List MessageOp}
    (hops : StepsMeet (MessageTasks.step H) (fun s op => op.KeepsFailed s)
      (MessageTasks.boot masterKey) ops) :
    (runFrom (MessageTasks.step H) (MessageTasks.boot masterKey) ops).FailedStay H :=
  (hops.invariant (fun _ _ hinv hop => hinv.step hop)
    (MessageTasks.failedInv_boot H masterKey)).failedStay

/-- A message is typed, its sending fails, and its bubble shows that. -/
def failingRun : List MessageOp :=
  [.create, .typeText [0x68] true, .processKeyboard 0 .failed 0 .none true, .handleStatusEvent]

/-- A text of one byte is appended without faults. -/
theorem AppendFaults.none_clean_text (direction status : UInt8) (timestamp : Int64) (b : UInt8) :
    AppendFaults.none.Clean (historyMessageOf direction status timestamp [b]) where
  reaches := ⟨rfl, rfl, fun _ => rfl, rfl, rfl, rfl⟩
  openRead := rfl
  written newFile := ⟨fun _ => by decide, fun _ => rfl, by decide, by decide,
    by change 12 + min 1 4096 ≤ 65535; decide, by decide, rfl, by decide⟩

/-- The failed message is stored, loaded and shown as failed. -/
theorem failed_messages_stay_failed_shown :
    (runFrom (MessageTasks.step symbolicOpening) (MessageTasks.boot (zeroBytes 32))
      failingRun).FailedStay symbolicOpening :=
  failed_messages_stay_failed symbolicOpening (zeroBytes 32)
    ⟨trivial,
      show (ChatOp.sendMessage [0x68] true).KeepsLabels _ by decide,
      fun typed htyped => by
        obtain rfl := Option.some.inj htyped
        exact ⟨by decide, by decide, nofun,
          fun status => AppendFaults.none_clean_text historyDirSent status 0 0x68,
          fun _ => ⟨rfl, by decide⟩⟩,
      fun _ event hevent hother => by
        obtain rfl := Option.some.inj hevent
        exact absurd rfl hother,
      trivial⟩

/-- The same message after the chat is opened again: the history is loaded and rendered. -/
def reopenedRun : List MessageOp :=
  failingRun ++
    [.cleanup, .create, .reload 0 ⟨true, none, true, true, 1000, true⟩ (fun _ => 0)
      ⟨true, true, true, true, 32⟩ true 60000, .renderTick fun _ => true]

set_option maxRecDepth 8192 in
/-- Its bubble from the history shows the delivered mark. -/
theorem failed_message_shown_delivered :
    ¬ (runFrom (MessageTasks.step symbolicOpening) (MessageTasks.boot (zeroBytes 32))
      reopenedRun).FailedStay symbolicOpening := by
  have hbubble : ∃ b ∈ (runFrom (MessageTasks.step symbolicOpening)
      (MessageTasks.boot (zeroBytes 32)) reopenedRun).chat.bubbles.children,
      (b.id, some 0) ∈ (runFrom (MessageTasks.step symbolicOpening)
        (MessageTasks.boot (zeroBytes 32)) reopenedRun).drawnOf ∧
        b.mark = some .delivered := by
    decide
  have hfailed : 0 ∈ (runFrom (MessageTasks.step symbolicOpening)
      (MessageTasks.boot (zeroBytes 32)) reopenedRun).failed := by
    decide
  intro hstay
  obtain ⟨b, hb, hdrawn, hmark⟩ := hbubble
  rcases hstay.shown b hb 0 hfailed (Or.inr hdrawn) with hshown | ⟨hwaits, -⟩
  · exact nomatch hmark.symm.trans hshown
  · exact nomatch hmark.symm.trans hwaits

end SimpleGo
