import SimpleGo.Agent.ChatText
import SimpleGo.Tasks.Receipts

/-!
# Lists of receipts

A receipt in an agent message is an id, a hash with its length and an info field with a length of
two bytes, which `build_receipt_message` leaves empty. `extract_chat_text` steps over the id and
the hash, and not over the info field: behind the first receipt it reads two bytes too early, and
the id it finds there is that of the second receipt without its last two bytes.
-/

namespace SimpleGo

open Lib

/-! ### Ids in bytes -/

/-- A byte is shifted in. -/
theorem shiftIn_toNat (id : UInt64) (b : UInt8) :
    ((id <<< 8) ||| b.toUInt64).toNat = (id.toNat * 256 + b.toNat) % 2 ^ 64 := by
  have hb := b.toNat_lt
  have hshift : (id <<< 8).toNat = (id.toNat % 2 ^ 56) <<< 8 := by
    rw [UInt64.toNat_shiftLeft, Nat.shiftLeft_eq, Nat.shiftLeft_eq]
    change id.toNat * 256 % 18446744073709551616 = id.toNat % 72057594037927936 * 256
    omega
  rw [UInt64.toNat_or, UInt8.toNat_toUInt64, hshift,
    ← Nat.shiftLeft_add_eq_or_of_lt (show b.toNat < 2 ^ 8 by omega), Nat.shiftLeft_eq]
  omega

/-- An id is read back from its eight bytes. -/
theorem bigEndian64_be64 (id : UInt64) : bigEndian64 (Lib.be64 id) = id := by
  apply UInt64.toNat_inj.1
  have hid := id.toNat_lt
  simp only [bigEndian64, Lib.be64, List.foldl_cons, List.foldl_nil, shiftIn_toNat, toNat_ofNat_mod,
    UInt64.toNat_zero]
  omega

/-- Two zeros in front of an id are the bytes of the id without its last two. -/
theorem zeros_be64 (id : UInt64) :
    ([0, 0] ++ Lib.be64 id : List UInt8) =
      Lib.be64 (id >>> 16) ++ [UInt8.ofNat (id.toNat / 2 ^ 8), UInt8.ofNat id.toNat] := by
  have hid := id.toNat_lt
  have hshift : (id >>> 16).toNat = id.toNat / 2 ^ 16 := by
    rw [UInt64.toNat_shiftRight, Nat.shiftRight_eq_div_pow]
    rfl
  have hhigh : id.toNat / 2 ^ 16 / 2 ^ 56 = 0 := by omega
  have hnext : id.toNat / 2 ^ 16 / 2 ^ 48 = 0 := by omega
  simp only [Lib.be64, hshift, hhigh, hnext, Nat.div_div_eq_div_mul, List.cons_append,
    List.nil_append]
  rfl

/-! ### The format -/

/-- A receipt: the id of a message and its hash, a short string. -/
structure ReceiptEntry where
  msgId : UInt64
  msgHash : List UInt8
  short : msgHash.length < 256

/-- A receipt in bytes, with an empty info field. -/
def ReceiptEntry.encode (r : ReceiptEntry) : List UInt8 :=
  Lib.be64 r.msgId ++ UInt8.ofNat r.msgHash.length :: (r.msgHash ++ [0x00, 0x00])

/-- The payload of a list of receipts: the tag, the count and the receipts. -/
def receiptsPayload (rs : List ReceiptEntry) : List UInt8 :=
  0x56 :: UInt8.ofNat rs.length :: rs.flatMap ReceiptEntry.encode

/-- What `build_receipt_message` writes is the payload of one receipt. -/
theorem receipt_aMessage (id : UInt64) (hash : Bytes 32) :
    (AgentSend.receipt id hash).aMessage =
      receiptsPayload [⟨id, hash.toList, by rw [Vector.length_toList]; decide⟩] := by
  simp only [AgentSend.aMessage, receiptsPayload, ReceiptEntry.encode, List.flatMap_cons,
    List.flatMap_nil, List.append_nil, Vector.length_toList, List.append_assoc, List.cons_append,
    List.nil_append]
  rfl

/-! ### The reader -/

/-- An id and a hash length are read, and the next receipt is taken to begin behind the hash. -/
theorem receiptIds_cons {body rest : List UInt8} {voff : ℕ} {id : UInt64} {hashLen : UInt8}
    (h : body.drop voff = Lib.be64 id ++ hashLen :: rest) (hrest : rest ≠ []) (count : ℕ) :
    receiptIds body (count + 1) voff = id :: receiptIds body count (voff + 9 + hashLen.toNat) := by
  have hlen := congrArg List.length h
  have hpos := List.length_pos_iff.2 hrest
  rw [List.length_drop, List.length_append, Lib.be64_length, List.length_cons] at hlen
  have hhash : body.getD (voff + 8) 0 = hashLen := by
    have hbyte : (Lib.be64 id ++ hashLen :: rest).getD 8 0 = hashLen := rfl
    rw [← hbyte, ← h, List.getD_eq_getElem?_getD, List.getD_eq_getElem?_getD, List.getElem?_drop]
  rw [receiptIds, if_pos (by omega), h, List.take_left' (Lib.be64_length id), bigEndian64_be64,
    hhash]

/-- The ids in an agent message with a list of receipts. -/
theorem extractReceipts_agentMessage (msgId : UInt64) (hash : Bytes 32) {rs : List ReceiptEntry}
    (hcount : rs.length ≤ 255) :
    ∃ voff, (agentMessage msgId hash (receiptsPayload rs)).drop voff =
        rs.flatMap ReceiptEntry.encode ∧
      extractReceipts (agentMessage msgId hash (receiptsPayload rs)) =
        receiptIds (agentMessage msgId hash (receiptsPayload rs)) rs.length voff := by
  obtain ⟨header, heq, hoffset, hlong, hfirst⟩ :=
    innerOffset_agentMessage msgId hash (receiptsPayload rs)
  generalize agentMessage msgId hash (receiptsPayload rs) = body at heq hoffset
  have hdrop : ∀ i, body.drop (header.length + i) = (receiptsPayload rs).drop i := by
    intro i
    rw [heq, ← List.drop_drop, List.drop_left]
  have hget : ∀ i, body.getD (header.length + i) 0 = (receiptsPayload rs).getD i 0 := by
    intro i
    rw [heq, List.getD_append_right _ _ _ _ (Nat.le_add_right _ _), Nat.add_sub_cancel_left]
  have hlen : body.length = header.length + (receiptsPayload rs).length := by
    rw [heq, List.length_append]
  have hpayload : 2 ≤ (receiptsPayload rs).length := by
    rw [receiptsPayload, List.length_cons, List.length_cons]
    omega
  have hmsg : body.getD 0 0 = 0x4D := by
    rw [heq, List.getD_append _ _ _ _ (by omega), hfirst]
  have htag : hasInnerTag body 0x56 = true := by
    have hinner := hget 0
    rw [Nat.add_zero] at hinner
    simp only [hasInnerTag, hoffset, hmsg, hinner, Bool.and_eq_true, decide_eq_true_eq,
      beq_self_eq_true, and_true]
    exact ⟨⟨by omega, by omega⟩, rfl⟩
  have hn : (body.getD (header.length + 1) 0).toNat = rs.length := by
    rw [hget 1]
    change (UInt8.ofNat rs.length).toNat = _
    rw [toNat_ofNat_mod]
    omega
  refine ⟨header.length + 2, hdrop 2, ?_⟩
  rw [extractReceipts, htag, hoffset, hn, Bool.true_and, decide_eq_true (by omega), if_pos rfl]

/-! ### What is read -/

/-- The first receipt of a list is read, and the next is looked for in front of its info field. -/
theorem receiptIds_first {body rest : List UInt8} {voff : ℕ} {r : ReceiptEntry}
    (h : body.drop voff = r.encode ++ rest) (count : ℕ) :
    receiptIds body (count + 1) voff =
        r.msgId :: receiptIds body count (voff + 9 + r.msgHash.length) ∧
      body.drop (voff + 9 + r.msgHash.length) = [0x00, 0x00] ++ rest := by
  have hlen : (UInt8.ofNat r.msgHash.length).toNat = r.msgHash.length := by
    rw [toNat_ofNat_mod]
    exact Nat.mod_eq_of_lt r.short
  rw [ReceiptEntry.encode, List.append_assoc, List.cons_append, List.append_assoc] at h
  constructor
  · rw [receiptIds_cons h (by simp), hlen]
  · rw [Nat.add_assoc, ← List.drop_drop, h, ← List.drop_drop]
    rw [show (Lib.be64 r.msgId ++ UInt8.ofNat r.msgHash.length :: (r.msgHash ++
      ([0x00, 0x00] ++ rest))).drop 9 = r.msgHash ++ ([0x00, 0x00] ++ rest) from rfl]
    rw [List.drop_left]

/-- Behind an info field the next id is read without its last two bytes. -/
theorem receiptIds_next {body rest : List UInt8} {voff : ℕ} {r : ReceiptEntry}
    (h : body.drop voff = [0x00, 0x00] ++ (r.encode ++ rest)) (count : ℕ) :
    receiptIds body (count + 1) voff = (r.msgId >>> 16) ::
      receiptIds body count (voff + 9 + (UInt8.ofNat (r.msgId.toNat / 2 ^ 8)).toNat) := by
  rw [ReceiptEntry.encode, List.append_assoc, ← List.append_assoc, zeros_be64,
    List.append_assoc] at h
  exact receiptIds_cons h (by simp) count

/-- The receipts of a message are read back: the ids that are listed, in their order. -/
def ReadBack (msgId : UInt64) (hash : Bytes 32) (rs : List ReceiptEntry) : Prop :=
  extractReceipts (agentMessage msgId hash (receiptsPayload rs)) = rs.map ReceiptEntry.msgId

/-- No receipt needs to be found behind an info field, or it is the last one and has id zero. -/
def SkipsNothing : List ReceiptEntry → Prop
  | [] => True
  | [_] => True
  | [_, r] => r.msgId = 0
  | _ => False

/-- An id without its last two bytes is the id only when it is zero. -/
theorem shiftRight_eq_self_iff (id : UInt64) : id >>> 16 = id ↔ id = 0 := by
  rw [← UInt64.toNat_inj, ← UInt64.toNat_inj, UInt64.toNat_shiftRight,
    Nat.shiftRight_eq_div_pow]
  change id.toNat / 65536 = id.toNat ↔ id.toNat = 0
  omega

/-- A list of at most one receipt is read back, as is one of two whose second id is zero; nothing
else is, unless the second id is zero and a third follows. -/
theorem receipts_read_back (msgId : UInt64) (hash : Bytes 32) (rs : List ReceiptEntry)
    (hcount : rs.length ≤ 255) :
    (SkipsNothing rs → ReadBack msgId hash rs) ∧
    (ReadBack msgId hash rs →
      SkipsNothing rs ∨ 3 ≤ rs.length ∧ ∀ r ∈ rs[1]?, r.msgId = 0) := by
  obtain ⟨voff, hdrop, hids⟩ := extractReceipts_agentMessage msgId hash hcount
  rw [ReadBack, hids]
  cases rs with
  | nil => exact ⟨fun _ => rfl, fun _ => .inl trivial⟩
  | cons r rs =>
    rw [List.flatMap_cons] at hdrop
    obtain ⟨hfirst, hbehind⟩ := receiptIds_first hdrop rs.length
    cases rs with
    | nil => exact ⟨fun _ => hfirst, fun _ => .inl trivial⟩
    | cons r' rs =>
      rw [List.flatMap_cons] at hbehind
      have hnext := receiptIds_next hbehind rs.length
      rw [List.length_cons, hfirst, List.length_cons, hnext]
      simp only [List.map_cons, List.cons.injEq, true_and, shiftRight_eq_self_iff]
      cases rs with
      | nil => exact ⟨fun hzero => ⟨hzero, rfl⟩, fun h => .inl h.1⟩
      | cons r'' rs =>
        refine ⟨False.elim, fun h => .inr ⟨by simp, fun second hsecond => ?_⟩⟩
        obtain rfl := Option.some.inj hsecond
        exact h.1

/-- A receipt for a message id, with a short hash. -/
def sampleReceipt (id : UInt64) : ReceiptEntry := ⟨id, [1, 2, 3], by decide⟩

/-- One receipt is read back. -/
theorem receipts_read_back_one : ReadBack 2 (zeroBytes 32) [sampleReceipt 7] :=
  (receipts_read_back 2 (zeroBytes 32) [sampleReceipt 7] (by decide)).1 trivial

/-- Of two receipts, for the messages 7 and 8, the second is not found. -/
theorem receipts_second_misread :
    ¬ ∀ (msgId : UInt64) (hash : Bytes 32) (rs : List ReceiptEntry), rs.length ≤ 255 →
      ReadBack msgId hash rs := by
  intro h
  have hread := h 2 (zeroBytes 32) [sampleReceipt 7, sampleReceipt 8] (by decide)
  revert hread
  rw [ReadBack]
  decide

end SimpleGo
