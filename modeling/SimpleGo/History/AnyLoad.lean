import SimpleGo.History.Atomicity

/-!
# What any load shows

A load in which reads come short, with any number of messages asked for, follows the same walk as
far as it gets: it shows a run of the messages of a well-formed file, from the first one it looks
for on, each with its own number. Only how many there are depends on what goes wrong.
-/

namespace SimpleGo

open Lib

variable {K : Type}

/-! ### A file of which less can be read -/

/-- A length field that is read lies in what can be read, and is that of the file. -/
theorem historyRecordLen_take {file : List UInt8} {n pos recLen : ℕ}
    (h : historyRecordLen (file.take n) pos = some recLen) :
    pos + 1 < (file.take n).length ∧ historyRecordLen file pos = some recLen := by
  rw [historyRecordLen] at h
  cases hhigh : (file.take n)[pos]? with
  | none => simp only [hhigh, reduceCtorEq] at h
  | some high =>
    cases hlow : (file.take n)[pos + 1]? with
    | none => simp only [hhigh, hlow, reduceCtorEq] at h
    | some low =>
      simp only [hhigh, hlow] at h
      refine ⟨(List.getElem?_eq_some_iff.mp hlow).1, ?_⟩
      rw [List.getElem?_take] at hhigh hlow
      have hhigh' := (Option.ite_none_right_eq_some.mp hhigh).2
      have hlow' := (Option.ite_none_right_eq_some.mp hlow).2
      rw [historyRecordLen, hhigh', hlow']
      exact h

/-- Records that are skipped are those of the file. -/
theorem historySkip_take {file : List UInt8} {n records pos start : ℕ}
    (h : historySkip (file.take n) records pos = some start) :
    historySkip file records pos = some start := by
  induction records generalizing pos with
  | zero => exact h
  | succ records ih =>
    rw [historySkip] at h ⊢
    cases hlen : historyRecordLen (file.take n) pos with
    | none => simp only [hlen, reduceCtorEq] at h
    | some recLen =>
      rw [(historyRecordLen_take hlen).2]
      simp only [hlen] at h
      exact ih h

/-- Of the records of a list of messages the first ones are read, each whole. -/
theorem historyReadRecords_cut (H : HistoryPrimitives K) (key : K) (slot version : UInt8)
    (index : ℕ) (log : List HistoryMessage) (pre : List UInt8) (n : ℕ) {start used : ℕ}
    (bufAlloc count : ℕ) (hpos : start + used = pre.length) :
    ∃ m, (historyReadRecords ((pre ++ historyRecords H key slot version index log).take n) start
          bufAlloc count used).1 =
        historyOffsets H key slot version index (log.take m) used ∧
      used + (historyRecords H key slot version index (log.take m)).length ≤
        (historyReadRecords ((pre ++ historyRecords H key slot version index log).take n) start
          bufAlloc count used).2 ∧
      (m = 0 ∨
        pre.length + (historyRecords H key slot version index (log.take m)).length ≤ n) := by
  induction log generalizing index pre used count with
  | nil =>
    refine ⟨0, ?_⟩
    cases count with
    | zero => exact ⟨rfl, Nat.le_refl _, .inl rfl⟩
    | succ count =>
      have hend : historyRecordLen ((pre ++ historyRecords H key slot version index []).take n)
          (start + used) = none := by
        rw [historyRecords, List.append_nil, hpos, historyRecordLen,
          List.getElem?_eq_none (by rw [List.length_take]; omega)]
      simp only [historyReadRecords, hend]
      exact ⟨rfl, Nat.le_refl _, .inl trivial⟩
  | cons msg log ih =>
    cases count with
    | zero => exact ⟨0, rfl, Nat.le_refl _, .inl rfl⟩
    | succ count =>
      obtain ⟨hmin, hmax⟩ := historyRecord_length_bounds H key slot version index msg
      have hrecord := historyRecordLen_record H key slot version index msg pre
        (historyRecords H key slot version (index + 1) log)
      have hpos' : start + (used + (historyRecord H key slot version index msg).length) =
          (pre ++ historyRecord H key slot version index msg).length := by
        rw [List.length_append]
        omega
      have hnext := ih (index + 1) (pre ++ historyRecord H key slot version index msg) count hpos'
      rw [List.append_assoc, List.length_append] at hnext
      rw [historyRecords]
      generalize hfile : (pre ++ (historyRecord H key slot version index msg ++
        historyRecords H key slot version (index + 1) log)).take n = file at hnext ⊢
      have hlen : file.length ≤ n := by
        rw [← hfile, List.length_take]
        exact Nat.min_le_left _ _
      rw [historyReadRecords]
      cases hread : historyRecordLen file (start + used) with
      | none => exact ⟨0, rfl, Nat.le_refl _, .inl rfl⟩
      | some recLen =>
        obtain ⟨hin, hsame⟩ := historyRecordLen_take (hfile ▸ hread)
        rw [hfile] at hin
        rw [hpos, hrecord] at hsame
        obtain rfl := Option.some.inj hsame
        have hdata : used + 2 + (4294967294 + (historyRecord H key slot version index msg).length) %
            4294967296 = used + (historyRecord H key slot version index msg).length := by omega
        simp only
        by_cases hroom : (used + 2 + (4294967294 +
            (historyRecord H key slot version index msg).length) % 4294967296) % 4294967296 >
              bufAlloc
        · rw [if_pos hroom]
          exact ⟨0, rfl, Nat.le_refl _, .inl rfl⟩
        · rw [if_neg hroom]
          by_cases hshort : file.length < start + used + 2 +
              (4294967294 + (historyRecord H key slot version index msg).length) % 4294967296
          · rw [if_pos hshort]
            exact ⟨0, rfl, by change used + 0 ≤ file.length - start; omega, .inl rfl⟩
          · rw [if_neg hshort, hdata]
            obtain ⟨m, hoffsets, hused, hwhole⟩ := hnext
            refine ⟨m + 1, ?_, ?_, .inr ?_⟩
            · rw [List.take_succ_cons, historyOffsets, ← hoffsets]
            · rw [List.take_succ_cons, historyRecords, List.length_append]
              omega
            · rw [List.take_succ_cons, historyRecords, List.length_append]
              rcases hwhole with rfl | hwhole
              · change pre.length + ((historyRecord H key slot version index msg).length + 0) ≤ n
                omega
              · omega

/-! ### Loads -/

/-- What a load shows from a position on: a run of the messages, with their numbers. -/
def ShowsRun (header : HistoryHeader) (log : List HistoryMessage) (start : ℕ)
    (loaded : List HistoryMessage) : Prop :=
  ∃ late, late <+: log.drop start ∧ loaded = historyShown header start late

/-- Nothing shown is a run. -/
theorem showsRun_nil (header : HistoryHeader) (log : List HistoryMessage) (start : ℕ) :
    ShowsRun header log start [] :=
  ⟨[], List.nil_prefix, rfl⟩

/-- The buffer holds what was read whole, in a file of which less can be read. -/
theorem holds_rawBuf_cut {file l : List UInt8} {start n used : ℕ} (heap : Mem)
    (hfile : Holds (fun i => file.getD i 0) start l) (hused : l.length ≤ used)
    (hin : start + l.length ≤ n) :
    Holds (fun i => if i < used then (file.take n).getD (start + i) 0 else heap i) 0 l := by
  apply List.ext_getElem (window_length _ _ _)
  intro i hi hl
  have hbyte := hfile.getElem i hl
  simp only [window, List.getElem_map, List.getElem_range, Nat.zero_add]
  rw [if_pos (by omega), ← hbyte, List.getD_eq_getElem?_getD, List.getD_eq_getElem?_getD,
    List.getElem?_take, if_pos (by omega)]

section Load

variable (H : HistoryOpening K) (key : K) (slot : UInt8) (header : HistoryHeader)
  (log : List HistoryMessage)

/-- From the header on: the records that are found open to a run of the messages. -/
theorem historyLoadFrom_cut (n : ℕ) (startIdx toLoad : ℤ) (heap : Mem) :
    ShowsRun header log startIdx.toNat (historyLoadFrom H key header
      ((historyFile H.toHistoryPrimitives key slot header log).take n) startIdx toLoad heap).2 := by
  rw [historyLoadFrom]
  simp only
  cases hskip : historySkip ((historyFile H.toHistoryPrimitives key slot header log).take n)
      startIdx.toNat historyHeaderSize with
  | none => exact showsRun_nil header log _
  | some start =>
    have hwhole := historySkip_take hskip
    have hheader : historyHeaderSize = header.encode.length := (header.encode_length).symm
    have hle : startIdx.toNat ≤ log.length := by
      by_contra hlt
      have hbeyond := historySkip_beyond H.toHistoryPrimitives key slot header.version 0 log
        header.encode (startIdx.toNat - log.length - 1)
      rw [show log.length + (startIdx.toNat - log.length - 1 + 1) = startIdx.toNat by omega,
        ← hheader] at hbeyond
      exact absurd (hwhole.symm.trans hbeyond) (Option.some_ne_none start)
    have hsplit := historyRecords_append H.toHistoryPrimitives key slot header.version 0
      (log.take startIdx.toNat) (log.drop startIdx.toNat)
    rw [List.take_append_drop, List.length_take_of_le hle, Nat.zero_add] at hsplit
    have hrecords := historySkip_records H.toHistoryPrimitives key slot header.version 0
      (log.take startIdx.toNat) header.encode (historyRecords H.toHistoryPrimitives key slot
        header.version startIdx.toNat (log.drop startIdx.toNat))
    rw [← hsplit, List.length_take_of_le hle, ← hheader] at hrecords
    obtain rfl := Option.some.inj (hwhole.symm.trans hrecords)
    obtain ⟨m, hoffsets, hused, hin⟩ := historyReadRecords_cut H.toHistoryPrimitives key slot
      header.version startIdx.toNat (log.drop startIdx.toNat)
      (header.encode ++ historyRecords H.toHistoryPrimitives key slot header.version 0
        (log.take startIdx.toNat)) n (toLoad * 16041 % 4294967296).toNat
      (min toLoad.toNat historyMaxLoad)
      (show historyHeaderSize + _ + 0 = _ by rw [List.length_append, ← hheader, Nat.add_zero])
    rw [List.append_assoc, ← hsplit] at hoffsets hused
    change ShowsRun header log startIdx.toNat (historyOpenRecords H key header
      (fun i => if i < (historyReadRecords
        ((historyFile H.toHistoryPrimitives key slot header log).take n) _ _ _ 0).2 then _ else _)
      startIdx.toNat (historyReadRecords
        ((historyFile H.toHistoryPrimitives key slot header log).take n) _ _ _ 0).1)
    rw [historyFile, hoffsets]
    refine ⟨_, List.take_prefix m _, historyOpenRecords_records H key slot header _ _ ?_⟩
    rcases hin with rfl | hin
    · rw [List.take_zero]
      exact holds_nil _ _
    · refine holds_rawBuf_cut heap ?_ (by rwa [Nat.zero_add] at hused) ?_
      · have hheld := holds_memOf (header.encode ++ historyRecords H.toHistoryPrimitives key slot
          header.version 0 log) fun _ => 0
        change Holds (fun i => (header.encode ++ _).getD i 0) 0 _ at hheld
        generalize (fun i => (header.encode ++ historyRecords H.toHistoryPrimitives key slot
          header.version 0 log).getD i 0) = file at hheld ⊢
        rw [hsplit, ← List.take_append_drop m (log.drop startIdx.toNat),
          historyRecords_append] at hheld
        simp only [holds_append, Nat.zero_add, ← hheader] at hheld
        exact hheld.2.2.1
      · rwa [List.length_append, ← hheader] at hin

end Load

/-- Of a header that is read in part nothing comes, else it is the header of the file. -/
theorem HistoryHeader.read_take_encode_append {header header' : HistoryHeader}
    {rest : List UInt8} {n : ℕ} (h : read ((header.encode ++ rest).take n) = some header') :
    header' = header := by
  have hlen := (read_eq_some.mp h).1
  rw [List.length_take] at hlen
  have hn : header.encode.length ≤ n := by
    rw [encode_length]
    exact Nat.le_trans hlen (Nat.min_le_left _ _)
  rw [List.take_append, List.take_of_length_le hn, read_encode_append] at h
  exact (Option.some.inj h).symm

/-- A slot without a file has nothing loaded. -/
theorem smpHistoryLoadRecent_no_file (H : HistoryOpening K) {dev : HistoryDevice K} {slot : UInt8}
    (hfile : dev.sd (historyBuildPath slot) = none) (count : ℤ) (faults : LoadFaults) (heap : Mem) :
    (smpHistoryLoadRecent H dev slot count faults heap).2 = [] := by
  unfold smpHistoryLoadRecent
  rw [hfile, ite_self]
  split
  · rfl
  split
  · rfl
  split
  · rfl
  split
  · rfl
  dsimp only
  split <;> rfl

/-- Whatever is asked for and whatever goes wrong, a load of a well-formed file shows a run of
its messages from the first one looked for on. -/
theorem KeepsLog.showsRun {H : HistoryOpening K} {dev : HistoryDevice K} {slot : UInt8}
    {header : HistoryHeader} {log : List HistoryMessage}
    (h : KeepsLog H.toHistoryPrimitives dev slot header log) (count : ℤ) (faults : LoadFaults)
    (heap : Mem) :
    ShowsRun header log (historyStartIdx log.length count).toNat
      (smpHistoryLoadRecent H dev slot count faults heap).2 := by
  have hnil := showsRun_nil header log (historyStartIdx log.length count).toNat
  unfold smpHistoryLoadRecent
  -- Each way out in front of the records shows nothing.
  split
  · exact hnil
  split
  · exact hnil
  split
  · exact hnil
  split
  · exact hnil
  dsimp only
  split
  · exact hnil
  split
  · exact hnil
  · next content hcontent =>
    have hfile : content = historyFile H.toHistoryPrimitives
        (historyDeriveKey H.toHistoryPrimitives dev.masterKey slot) slot header log := by
      have hopened := (Option.ite_none_right_eq_some.mp hcontent).2
      exact Option.some.inj (hopened.symm.trans h.file)
    subst hfile
    split
    · exact hnil
    · next found hfound =>
      obtain rfl := HistoryHeader.read_take_encode_append hfound
      rw [h.msgCount]
      split
      · exact hnil
      split
      · exact hnil
      · exact historyLoadFrom_cut H _ slot found log faults.readable _ _ heap

end SimpleGo
