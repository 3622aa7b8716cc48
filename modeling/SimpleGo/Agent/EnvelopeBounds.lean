import Mathlib.Data.List.Find
import Mathlib.Data.Option.Basic
import SimpleGo.Agent.EnvelopeReads

/-!
# What is read of a server block

The length in front of an envelope comes from the sender. It is compared with the offsets that
the key leads to, but never with the block it stands in, and a key is looked at before it is
compared. A call stays inside the block when the parts that the bytes of the block select lie in
it.
-/

namespace SimpleGo.EnvelopeInput

open Lib Lib.Logged

/-! ### What the bytes select -/

/-- Where the key of an envelope is, by its two marker bytes. -/
inductive KeyLayout where
  | corrId
  | separate
  | cached
  | unknown
  deriving DecidableEq

/-- The layout that two marker bytes stand for. -/
def keyLayout (maybeCorrId maybeE2e : UInt8) : KeyLayout :=
  if maybeCorrId = 0x31 ∧ (maybeE2e = 0x2C ∨ maybeE2e = 0x30) then .corrId
  else if maybeCorrId = 0x31 ∧ maybeE2e = 0x31 then .separate
  else if maybeCorrId = 0x2C ∨ maybeCorrId = 0x30 then .cached
  else .unknown

/-- The first of the nearby offsets with an SPKI that the length leaves room for. -/
def foundSpki (envelope : Mem) (envelopeLen : ℕ) : Option ℕ :=
  (List.range' 10 11).find? fun off => off + 44 ≤ envelopeLen ∧ spkiAt envelope off

/-- What `extract_sender_key_ex` finds, by the layout. -/
theorem extractSenderKeyEx_layout (envelope : Mem) (envelopeLen : ℕ) (cached : Option (Bytes 32)) :
    extractSenderKeyEx envelope envelopeLen cached =
      match keyLayout (envelope 12) (envelope 13) with
      | .corrId => if spkiAt envelope 14 then some (spkiSenderKey envelope 14) else none
      | .separate =>
        if envelope 58 = 44 ∧ spkiAt envelope 59 then some (spkiSenderKey envelope 59) else none
      | .cached => cached.map fun key => ⟨key, false, 13⟩
      | .unknown => (foundSpki envelope envelopeLen).map (spkiSenderKey envelope) := by
  rw [extractSenderKeyEx, keyLayout]
  by_cases hcorr : envelope 12 = 0x31 ∧ (envelope 13 = 0x2C ∨ envelope 13 = 0x30)
  · rw [if_pos hcorr, if_pos hcorr]
    rfl
  · rw [if_neg hcorr, if_neg hcorr]
    by_cases hsep : envelope 12 = 0x31 ∧ envelope 13 = 0x31
    · rw [if_pos hsep, if_pos hsep]
      rfl
    · rw [if_neg hsep, if_neg hsep]
      by_cases hcached : envelope 12 = 0x2C ∨ envelope 12 = 0x30
      · rw [if_pos hcached, if_pos hcached]
      · rw [if_neg hcached, if_neg hcached]
        rfl

/-! ### What the reads need -/

section Key

variable (envelope : Mem) (envelopeLen room : ℕ) (cached : Option (Bytes 32))

/-- The block reaches as far as the layout of the key does, and `body` holds of the key. -/
def KeyCovered (body : SenderKey → Prop) : Prop :=
  match keyLayout (envelope 12) (envelope 13) with
  | .corrId => 26 ≤ room ∧
    (spkiAt envelope 14 → 58 ≤ room ∧ body (spkiSenderKey envelope 14))
  | .separate => 59 ≤ room ∧ (envelope 58 = 44 → 71 ≤ room ∧
    (spkiAt envelope 59 → 103 ≤ room ∧ body (spkiSenderKey envelope 59)))
  | .cached => ∀ key ∈ cached, body ⟨key, false, 13⟩
  | .unknown => ∀ off ∈ foundSpki envelope envelopeLen,
    off + 44 ≤ room ∧ body (spkiSenderKey envelope off)

variable {envelope envelopeLen room cached}

/-- An SPKI is read up to its header, and to its end where it has one. -/
theorem takeSpki_below (off : ℕ) : (takeSpki envelope off).Below room ↔
    off + 12 ≤ room ∧ (spkiAt envelope off → off + 44 ≤ room) := by
  rw [takeSpki, Below, all_bind, all_ite, all_bind, val_windowAt]
  simp only [below_windowAt, below_windowBytesAt, all_pure, and_true, spkiAt, Nat.reduceEqDiff,
    false_or, implies_true, Nat.add_assoc, Nat.reduceAdd, decide_eq_true_iff]

/-- The search reads what its bound leaves, wherever the headers lie in the room. -/
theorem spkiSearch_below (offs : List ℕ)
    (hheaders : ∀ off ∈ offs, off + 44 ≤ envelopeLen → off + 12 ≤ room) :
    (spkiSearch envelope envelopeLen offs).Below room ↔
      ∀ off ∈ offs.find? fun off => off + 44 ≤ envelopeLen ∧ spkiAt envelope off,
        off + 44 ≤ room := by
  induction offs with
  | nil => simp [spkiSearch]
  | cons off rest ih =>
    have ih := ih fun off' hoff' => hheaders off' (List.mem_cons_of_mem _ hoff')
    rw [spkiSearch, Below, all_ite, all_bind, all_ite, all_bind, val_windowAt, List.find?_cons]
    simp only [below_windowAt, below_windowBytesAt, all_pure, and_true, Nat.reduceEqDiff,
      false_or, Nat.add_assoc, Nat.reduceAdd, ih]
    by_cases hlen : off + 44 ≤ envelopeLen
    · have hheader := hheaders off List.mem_cons_self hlen
      by_cases hspki : window envelope off 12 = RotationDevice.x25519SpkiHdr
      · simp only [hlen, hheader, spkiAt, hspki, true_and, and_self, decide_true,
          not_true_eq_false, false_imp_iff, true_imp_iff, and_true, Option.mem_some_iff, forall_eq']
      · simp only [hlen, hheader, spkiAt, hspki, true_and, and_false, decide_false,
          Bool.false_eq_true, not_false_eq_true, not_true_eq_false, false_imp_iff, true_imp_iff,
          and_true]
    · simp only [hlen, false_and, decide_false, false_imp_iff, not_false_eq_true, true_imp_iff,
        true_and]

/-- `extract_sender_key_ex` stays in the room, and finds only keys of which `body` holds, exactly
when its layout is covered. -/
theorem extractSenderKeyLogged_below (body : SenderKey → Prop) (hlog : min 32 envelopeLen ≤ room) :
    ((extractSenderKeyLogged envelope envelopeLen cached).Below room ∧
      ∀ key ∈ extractSenderKeyEx envelope envelopeLen cached, body key) ↔
      14 ≤ room ∧ KeyCovered envelope envelopeLen room cached body := by
  rw [extractSenderKeyEx_layout, KeyCovered, extractSenderKeyLogged, Below, all_bind, all_bind,
    val_byteAt, val_byteAt, keyLayout]
  by_cases hcorr : envelope 12 = 0x31 ∧ (envelope 13 = 0x2C ∨ envelope 13 = 0x30)
  · rw [if_pos hcorr, if_pos hcorr]
    cases hspki : spkiAt envelope 14 with
    | true =>
      simp only [below_byteAt, takeSpki_below, hspki, if_true, Option.mem_some_iff, forall_eq']
      grind
    | false =>
      simp only [below_byteAt, takeSpki_below, hspki, Bool.false_eq_true, if_false,
        Option.not_mem_none]
      grind
  · rw [if_neg hcorr, if_neg hcorr]
    by_cases hsep : envelope 12 = 0x31 ∧ envelope 13 = 0x31
    · rw [if_pos hsep, if_pos hsep, all_bind, val_byteAt, all_ite]
      by_cases hlen : envelope 58 = 44
      · cases hspki : spkiAt envelope 59 with
        | true =>
          simp only [below_byteAt, takeSpki_below, hlen, hspki, and_self, if_true,
            Option.mem_some_iff, forall_eq']
          grind
        | false =>
          simp only [below_byteAt, takeSpki_below, hlen, hspki, Bool.false_eq_true, and_false,
            if_false, Option.not_mem_none]
          grind
      · simp only [below_byteAt, all_pure, hlen, false_and, if_false, Option.not_mem_none]
        grind
    · rw [if_neg hsep, if_neg hsep]
      by_cases hcached : envelope 12 = 0x2C ∨ envelope 12 = 0x30
      · rw [if_pos hcached, if_pos hcached]
        simp only [below_byteAt, all_pure, and_true, Option.mem_map, forall_exists_index, and_imp,
          forall_apply_eq_imp_iff₂]
        grind
      · rw [if_neg hcached, if_neg hcached]
        -- the bytes for the log reach behind every header that the length lets the search compare
        have hheaders : ∀ off ∈ List.range' 10 11, off + 44 ≤ envelopeLen → off + 12 ≤ room := by
          intro off hoff hlen
          rw [List.mem_range'_1] at hoff
          omega
        have hsearch : (spkiSearch envelope envelopeLen (List.range' 10 11)).Below room ↔
            ∀ off ∈ foundSpki envelope envelopeLen, off + 44 ≤ room := spkiSearch_below _ hheaders
        rw [Below] at hsearch
        simp only [below_byteAt, hsearch, Option.mem_map, forall_exists_index, and_imp,
          forall_apply_eq_imp_iff₂, forall_and]
        grind

/-! ### Bytes of the block only -/

/-- Two memories have the same bytes below a bound. -/
def Agree (m m' : Mem) (bound : ℕ) : Prop := ∀ i < bound, m i = m' i

/-- A window below the bound is one window of both. -/
theorem Agree.window {m m' : Mem} {bound p n : ℕ} (h : Agree m m' bound) (hn : p + n ≤ bound) :
    Lib.window m p n = Lib.window m' p n := by
  apply List.map_congr_left
  intro i hi
  rw [List.mem_range] at hi
  exact h (p + i) (by omega)

/-- A window in the common part is the same. -/
theorem Agree.windowBytes {m m' : Mem} {bound p n : ℕ} (h : Agree m m' bound)
    (hn : p + n ≤ bound) : Lib.windowBytes m p n = Lib.windowBytes m' p n := by
  apply Vector.ext
  intro i hi
  simp only [Lib.windowBytes, Vector.getElem_ofFn]
  exact h (p + i) (by omega)

variable {envelope' : Mem}

/-- A key header in the common part is found in both. -/
theorem Agree.spkiAt {off : ℕ} (h : Agree envelope envelope' room) (hoff : off + 12 ≤ room) :
    SimpleGo.spkiAt envelope off = SimpleGo.spkiAt envelope' off := by
  rw [SimpleGo.spkiAt, SimpleGo.spkiAt, h.window hoff]

/-- The key behind it is the same. -/
theorem Agree.spkiSenderKey {off : ℕ} (h : Agree envelope envelope' room) (hoff : off + 44 ≤ room) :
    EnvelopeInput.spkiSenderKey envelope off = EnvelopeInput.spkiSenderKey envelope' off := by
  rw [EnvelopeInput.spkiSenderKey, EnvelopeInput.spkiSenderKey, h.windowBytes (by omega)]

/-- The search for a key header finds the same. -/
theorem Agree.foundSpki (h : Agree envelope envelope' room) (hlog : min 32 envelopeLen ≤ room) :
    EnvelopeInput.foundSpki envelope envelopeLen =
      EnvelopeInput.foundSpki envelope' envelopeLen := by
  rw [EnvelopeInput.foundSpki, EnvelopeInput.foundSpki]
  apply List.find?_congr
  intro off hoff
  rw [List.mem_range'_1] at hoff
  apply decide_eq_decide.2
  refine and_congr_right fun hlen => ?_
  rw [h.spkiAt (by omega)]

/-- The layout of a key is covered by the bytes of the room alone. -/
theorem Agree.keyCovered {body : SenderKey → Prop} (h : Agree envelope envelope' room)
    (hlog : min 32 envelopeLen ≤ room) (hroom : 14 ≤ room) :
    KeyCovered envelope envelopeLen room cached body ↔
      KeyCovered envelope' envelopeLen room cached body := by
  rw [KeyCovered, KeyCovered, h 12 (by omega), h 13 (by omega)]
  cases keyLayout (envelope' 12) (envelope' 13) with
  | corrId =>
    refine and_congr_right fun hheader => ?_
    rw [h.spkiAt hheader]
    exact imp_congr_right fun _ => and_congr_right fun hkey => by rw [h.spkiSenderKey hkey]
  | separate =>
    refine and_congr_right fun hlen => ?_
    rw [h 58 (by omega)]
    refine imp_congr_right fun _ => and_congr_right fun hheader => ?_
    rw [h.spkiAt hheader]
    exact imp_congr_right fun _ => and_congr_right fun hkey => by rw [h.spkiSenderKey hkey]
  | cached => rfl
  | unknown =>
    rw [h.foundSpki hlog]
    refine forall₂_congr fun off _ => and_congr_right fun hkey => ?_
    rw [h.spkiSenderKey hkey]

/-- A covered layout gives the key that the bytes of the room give. -/
theorem Agree.extractSenderKeyEx {body : SenderKey → Prop} (h : Agree envelope envelope' room)
    (hlog : min 32 envelopeLen ≤ room) (hroom : 14 ≤ room)
    (hkey : KeyCovered envelope' envelopeLen room cached body) :
    SimpleGo.extractSenderKeyEx envelope envelopeLen cached =
      SimpleGo.extractSenderKeyEx envelope' envelopeLen cached := by
  rw [extractSenderKeyEx_layout, extractSenderKeyEx_layout, h 12 (by omega), h 13 (by omega)]
  rw [KeyCovered] at hkey
  cases hlayout : keyLayout (envelope' 12) (envelope' 13) with
  | corrId =>
    simp only [hlayout] at hkey ⊢
    rw [h.spkiAt hkey.1]
    refine if_ctx_congr Iff.rfl (fun hspki => ?_) fun _ => rfl
    rw [h.spkiSenderKey (hkey.2 hspki).1]
  | separate =>
    simp only [hlayout] at hkey ⊢
    rw [h 58 (by omega)]
    by_cases hlen : envelope' 58 = 44
    · obtain ⟨hheader, hkey⟩ := hkey.2 hlen
      rw [h.spkiAt hheader]
      refine if_ctx_congr Iff.rfl (fun hspki => ?_) fun _ => rfl
      rw [h.spkiSenderKey (hkey hspki.2).1]
    · rw [if_neg fun h => hlen h.1, if_neg fun h => hlen h.1]
  | cached => rfl
  | unknown =>
    simp only [hlayout] at hkey ⊢
    rw [h.foundSpki hlog]
    exact Option.map_congr fun off hoff => h.spkiSenderKey (hkey off hoff).1

end Key

/-! ### The call -/

/-- The arguments of `smp_e2e_decrypt_reply_message_ex`; the peer's key is none where it is not
valid. -/
structure EnvelopeCall where
  msg : EncryptedMsg
  sharedSecret : Bytes 32
  e2ePrivate : Bytes 32
  cached : Option (Bytes 32)

section Call

variable (B : Boxes) (call : EnvelopeCall) (plain : List UInt8)

/-- The memory a server block lies in; only its own bytes matter. -/
def blockMem : Mem := memOf plain fun _ => 0

/-- The bytes of the block behind its length prefix. -/
def blockRoom : ℕ := plain.length - prefixLen (blockMem plain) plain.length

/-- The envelope in the block. -/
def blockEnvelope : Mem := fun i => blockMem plain (prefixLen (blockMem plain) plain.length + i)

/-- The length the block declares for its envelope. -/
def declaredLen : ℕ := read16 (blockMem plain) 0

/-- Behind a key with which the DH is computed, the declared length is that of bytes that are
there, unless it is too short for a nonce and a MAC. -/
def BodyCovered (key : SenderKey) : Prop :=
  (B.scalarmult call.e2ePrivate key.senderPub).isSome →
    key.offset + 40 ≤ declaredLen plain → declaredLen plain ≤ blockRoom plain

/-- The block reaches as far as its own bytes send the parser: over the length, the two marker
bytes and the bytes for the log, over the layout of the key and over the nonce and the box. -/
structure Covered : Prop where
  lengthBytes : 2 ≤ plain.length
  markerBytes : 14 ≤ blockRoom plain
  loggedBytes : min 32 (declaredLen plain) ≤ blockRoom plain
  key : KeyCovered (blockEnvelope plain) (declaredLen plain) (blockRoom plain) call.cached
    (BodyCovered B call plain)

/-- The declared length is one of bytes of the block. -/
def PrefixFits : Prop := declaredLen plain ≤ blockRoom plain

/-- The layout that the marker bytes select has a key, and it ends in the declared length. -/
def KeyFits : Prop :=
  match keyLayout (blockEnvelope plain 12) (blockEnvelope plain 13) with
  | .corrId => spkiAt (blockEnvelope plain) 14 ∧ 58 ≤ declaredLen plain
  | .separate => (blockEnvelope plain 58 = 44 ∧ spkiAt (blockEnvelope plain) 59) ∧
    103 ≤ declaredLen plain
  | .cached => call.cached.isSome ∧ 13 ≤ declaredLen plain
  | .unknown => (foundSpki (blockEnvelope plain) (declaredLen plain)).isSome

/-- A byte that is read is one of the block, and a box that is opened has a ciphertext with a MAC
in the declared length: `envelope_len` less an offset, not below zero. -/
def AccessInside : Access → Prop
  | .read pos => pos < plain.length
  | .boxOpen cipherLen => 16 ≤ cipherLen ∧ cipherLen ≤ declaredLen plain

/-- The call, with its accesses. -/
def EnvelopeCall.run (env : EnvelopeEnv) : Logged Access OpenedEnvelope :=
  smpE2eDecryptReplyMessageLogged B env call.msg call.sharedSecret call.e2ePrivate call.cached

/-- Whatever the heap does: every access is inside, and an envelope whose length prefix or key
does not fit is refused. -/
def StaysInside : Prop :=
  ∀ env : EnvelopeEnv, (call.run B env).All (AccessInside plain) ∧
    (¬ (PrefixFits plain ∧ KeyFits call plain) → (call.run B env).val.plain = none)

end Call

/-! ### The call reads what is covered -/

section Proof

variable {B : Boxes} {call : EnvelopeCall} {plain : List UInt8}

/-- Accesses from an offset on stay inside exactly when they are below the rest. -/
theorem readsOf_inside {α : Type} {base : ℕ} (x : Logged ℕ α) :
    (readsOf base x).All (AccessInside plain) ↔ x.Below (plain.length - base) := by
  rw [readsOf, all_mapLog, Below]
  refine forall₂_congr fun pos _ => ?_
  simp only [Function.comp_apply, AccessInside]
  omega

/-- The bytes of the block are in its memory, whatever lies behind them. -/
theorem agree_memOf (rest rest' : Mem) :
    Agree (memOf plain rest) (memOf plain rest') plain.length := by
  intro i hi
  simp only [memOf, List.getD_eq_getElem?_getD, List.getElem?_eq_getElem hi, Option.getD_some]

/-- The length prefix is the same in every memory the block lies in. -/
theorem prefixLen_memOf (rest : Mem) :
    prefixLen (memOf plain rest) plain.length = prefixLen (blockMem plain) plain.length := by
  rw [prefixLen, prefixLen]
  by_cases hlen : 2 < plain.length
  · have hagree := @agree_memOf plain rest fun _ => 0
    rw [hagree 0 (by omega), hagree 1 (by omega), blockMem]
  · rw [if_neg fun h => hlen h.1, if_neg fun h => hlen h.1]

/-- The length field in front of the plaintext. -/
theorem read16_memOf (rest : Mem) (h : 2 ≤ plain.length) :
    read16 (memOf plain rest) 0 = declaredLen plain := by
  have hagree := @agree_memOf plain rest fun _ => 0
  rw [declaredLen, read16, read16, hagree 0 (by omega), hagree (0 + 1) (by omega), blockMem]

/-- The envelope in a memory the block lies in. -/
def heapEnvelope (env : EnvelopeEnv) (plain : List UInt8) : Mem :=
  fun i => memOf plain env.serverJunk (prefixLen (memOf plain env.serverJunk) plain.length + i)

/-- The envelope is the same in every memory the block lies in, up to the end of the block. -/
theorem agree_envelope (env : EnvelopeEnv) :
    Agree (heapEnvelope env plain) (blockEnvelope plain) (blockRoom plain) := by
  intro i hi
  rw [blockRoom] at hi
  simp only [heapEnvelope, blockEnvelope, prefixLen_memOf]
  exact agree_memOf _ _ _ (by omega)

/-- The methods read the nonce and the box to their end, once the DH is computed. -/
theorem tryE2eDecryptLogged_inside (env : EnvelopeEnv) (envelope : Mem) {skipped off : ℕ}
    (pub priv : Bytes 32) (hfits : off + 40 ≤ declaredLen plain) :
    (tryE2eDecryptLogged B env envelope skipped (declaredLen plain) off (off + 24) pub priv
      (sizeSub (declaredLen plain) (off + 24))).All (AccessInside plain) ↔
      ((B.scalarmult priv pub).isSome → declaredLen plain ≤ plain.length - skipped) := by
  have hlt : declaredLen plain < 65536 := read16_lt _ _
  have hcipher := sizeSub_of_le (show off + 24 ≤ declaredLen plain by omega) (by omega)
  have hblock := sizeSub_of_le (show off ≤ declaredLen plain by omega) (by omega)
  rw [tryE2eDecryptLogged]
  cases hdh : B.scalarmult priv pub with
  | none => simp only [all_pure, Option.isSome_none, Bool.false_eq_true, false_imp_iff]
  | some dhSecret =>
    have hfirst : (tryClientMsgLogged B env envelope skipped (declaredLen plain) off pub priv).All
        (AccessInside plain) ↔
          (env.methodAlloc = true → declaredLen plain ≤ plain.length - skipped) := by
      rw [tryClientMsgLogged]
      cases env.methodAlloc with
      | false => simp only [Bool.false_eq_true, if_false, all_pure, false_imp_iff]
      | true =>
        simp only [if_true, all_bind, readsOf_inside, opens, all_note, List.mem_singleton,
          forall_eq, all_pure, and_true, below_windowAt, AccessInside, hblock, true_imp_iff]
        omega
    have hnone : env.methodAlloc = false →
        (tryClientMsgLogged B env envelope skipped (declaredLen plain) off pub priv).val =
          none := by
      intro halloc
      rw [tryClientMsgLogged, halloc]
      rfl
    simp only [all_bind, hfirst, Option.isSome_some, true_imp_iff]
    generalize (tryClientMsgLogged B env envelope skipped (declaredLen plain) off pub priv).val =
      first at hnone ⊢
    cases first with
    | some opened =>
      have halloc : env.methodAlloc = true := by
        rw [← Bool.not_eq_false]
        intro h
        cases hnone h
      simp only [halloc, true_imp_iff, all_pure, and_true]
    | none =>
      simp only [all_bind, readsOf_inside, opens, all_note, List.mem_singleton, forall_eq,
        all_pure, and_true, below_windowBytesAt, below_windowAt, AccessInside, hcipher]
      omega

/-- The accesses behind the server's layer: the length, the bytes for the log, those of the key,
and those of the methods. -/
theorem openE2eLayerLogged_inside (env : EnvelopeEnv) (hlen : 2 ≤ plain.length) :
    (openE2eLayerLogged B env plain call.e2ePrivate call.cached).All (AccessInside plain) ↔
      min 32 (declaredLen plain) ≤ blockRoom plain ∧
      (extractSenderKeyLogged (heapEnvelope env plain) (declaredLen plain) call.cached).Below
        (blockRoom plain) ∧
      ∀ key ∈ extractSenderKeyEx (heapEnvelope env plain) (declaredLen plain) call.cached,
        env.plainAlloc = true → BodyCovered B call plain key := by
  have hroom : plain.length - prefixLen (memOf plain env.serverJunk) plain.length =
      blockRoom plain := by rw [prefixLen_memOf, blockRoom]
  have hheap : (fun i => memOf plain env.serverJunk
      (prefixLen (memOf plain env.serverJunk) plain.length + i)) = heapEnvelope env plain := rfl
  have hprefix : 0 + 2 ≤ plain.length - 0 := by omega
  have hlogged : min 32 (declaredLen plain) = 0 ∨ 0 + min 32 (declaredLen plain) ≤ blockRoom plain ↔
      min 32 (declaredLen plain) ≤ blockRoom plain := by omega
  rw [openE2eLayerLogged, all_bind, readsOf_inside, below_read16At, val_readsOf, val_read16At,
    read16_memOf env.serverJunk hlen, all_bind, readsOf_inside, below_windowAt, all_bind,
    readsOf_inside, val_readsOf, extractSenderKeyLogged_val, hroom, hlogged]
  refine (and_iff_right hprefix).trans (and_congr_right fun _ => and_congr_right fun _ => ?_)
  rw [hheap]
  cases extractSenderKeyEx (heapEnvelope env plain) (declaredLen plain) call.cached with
  | none => simp only [all_pure, Option.not_mem_none, false_imp_iff, implies_true]
  | some key =>
    simp only [Option.mem_some_iff, forall_eq']
    by_cases hshort : declaredLen plain < key.offset + 24 + 16
    · rw [if_pos hshort]
      simp only [all_pure, true_iff]
      intro _ _ hfits
      omega
    · rw [if_neg hshort]
      have hfits : key.offset + 40 ≤ declaredLen plain := by omega
      cases env.plainAlloc with
      | false => simp only [Bool.false_eq_true, if_false, all_pure, false_imp_iff]
      | true =>
        rw [if_pos rfl, all_bind, tryE2eDecryptLogged_inside env _ _ _ hfits, hroom]
        simp only [all_pure, and_true, true_imp_iff, BodyCovered, hfits]

/-- A block without a length is read beyond. -/
theorem openE2eLayerLogged_short (env : EnvelopeEnv) (hlen : ¬ 2 ≤ plain.length) :
    ¬ (openE2eLayerLogged B env plain call.e2ePrivate call.cached).All (AccessInside plain) := by
  rw [openE2eLayerLogged, all_bind, readsOf_inside, below_read16At]
  rintro ⟨hread, -⟩
  omega

/-- A text comes out behind a key whose nonce and MAC the declared length leaves room for, and
with which the DH is computed. -/
theorem openE2eLayer_accepts {env : EnvelopeEnv} (hlen : 2 ≤ plain.length)
    (haccept : (openE2eLayer B env plain call.e2ePrivate call.cached).plain ≠ none) :
    ∃ key ∈ extractSenderKeyEx (heapEnvelope env plain) (declaredLen plain) call.cached,
      key.offset + 40 ≤ declaredLen plain ∧
      (B.scalarmult call.e2ePrivate key.senderPub).isSome := by
  have hheap : (fun i => memOf plain env.serverJunk ((if 2 < plain.length ∧
      (memOf plain env.serverJunk 0 ≠ 0 ∨ memOf plain env.serverJunk 1 ≠ 0) then 2 else 0) + i)) =
      heapEnvelope env plain := rfl
  unfold openE2eLayer at haccept
  simp only [read16_memOf env.serverJunk hlen] at haccept
  rw [hheap] at haccept
  cases hkey : extractSenderKeyEx (heapEnvelope env plain) (declaredLen plain) call.cached with
  | none =>
    rw [hkey] at haccept
    exact absurd rfl haccept
  | some key =>
    rw [hkey] at haccept
    simp only at haccept
    refine ⟨key, rfl, ?_⟩
    by_cases hshort : declaredLen plain < key.offset + 24 + 16 ∨ (!env.plainAlloc) = true
    · rw [if_pos hshort] at haccept
      exact absurd rfl haccept
    · rw [if_neg hshort] at haccept
      refine ⟨by omega, ?_⟩
      by_contra hdh
      rw [Option.not_isSome_iff_eq_none] at hdh
      rw [tryE2eDecryptEx, hdh] at haccept
      exact absurd rfl haccept

/-- A key whose offset leaves room in the declared length fits in it. -/
theorem keyFits_of_found {key : SenderKey} (hkey : key ∈ extractSenderKeyEx (blockEnvelope plain)
    (declaredLen plain) call.cached) (hroom : key.offset + 40 ≤ declaredLen plain) :
    KeyFits call plain := by
  rw [extractSenderKeyEx_layout] at hkey
  rw [KeyFits]
  cases hlayout : keyLayout (blockEnvelope plain 12) (blockEnvelope plain 13) with
  | corrId =>
    simp only [hlayout, Option.mem_def, Option.ite_none_right_eq_some, Option.some.injEq] at hkey ⊢
    obtain ⟨hspki, rfl⟩ := hkey
    simp only [spkiSenderKey] at hroom
    exact ⟨hspki, by omega⟩
  | separate =>
    simp only [hlayout, Option.mem_def, Option.ite_none_right_eq_some, Option.some.injEq] at hkey ⊢
    obtain ⟨hspki, rfl⟩ := hkey
    simp only [spkiSenderKey] at hroom
    exact ⟨hspki, by omega⟩
  | cached =>
    simp only [hlayout, Option.mem_def, Option.map_eq_some_iff] at hkey ⊢
    obtain ⟨peer, hpeer, rfl⟩ := hkey
    simp only at hroom
    exact ⟨Option.isSome_iff_exists.2 ⟨peer, hpeer⟩, by omega⟩
  | unknown =>
    simp only [hlayout, Option.mem_def, Option.map_eq_some_iff] at hkey ⊢
    obtain ⟨off, hoff, -⟩ := hkey
    exact Option.isSome_iff_exists.2 ⟨off, hoff⟩

end Proof

/-- A call stays inside its server block, refuses what does not fit and opens no box of a length
below zero, exactly when the block reaches as far as its own bytes send the parser. -/
theorem envelope_inside_iff_covered (B : Boxes) (call : EnvelopeCall) (plain : List UInt8)
    (hopen : B.boxOpenAfternm call.sharedSecret call.msg.serverNonce call.msg.encrypted =
      some plain) : StaysInside B call plain ↔ Covered B call plain := by
  have hrun : ∀ env : EnvelopeEnv, env.serverAlloc = true →
      call.run B env = openE2eLayerLogged B env plain call.e2ePrivate call.cached := by
    intro env halloc
    rw [EnvelopeCall.run, smpE2eDecryptReplyMessageLogged, if_pos halloc, hopen]
  constructor
  · intro h
    -- a heap that has every buffer
    have hall := (h { serverAlloc := true, serverJunk := fun _ => 0, plainAlloc := true
                      methodAlloc := true }).1
    rw [hrun _ rfl] at hall
    have hlen : 2 ≤ plain.length := by
      by_contra hlen
      exact openE2eLayerLogged_short _ hlen hall
    rw [openE2eLayerLogged_inside _ hlen] at hall
    obtain ⟨hlog, hbelow, hbody⟩ := hall
    obtain ⟨hroom, hkey⟩ := (extractSenderKeyLogged_below _ hlog).1
      ⟨hbelow, fun key hkey => hbody key hkey rfl⟩
    exact ⟨hlen, hroom, hlog, ((agree_envelope _).keyCovered hlog hroom).1 hkey⟩
  · rintro ⟨hlen, hroom, hlog, hkey⟩ env
    cases halloc : env.serverAlloc with
    | false =>
      rw [EnvelopeCall.run, smpE2eDecryptReplyMessageLogged, halloc]
      exact ⟨all_pure _, fun _ => rfl⟩
    | true =>
      rw [hrun env halloc, openE2eLayerLogged_inside env hlen, openE2eLayerLogged_val]
      have hfound := ((agree_envelope env).keyCovered hlog hroom).2 hkey
      obtain ⟨hbelow, hbody⟩ := (extractSenderKeyLogged_below _ hlog).2 ⟨hroom, hfound⟩
      refine ⟨⟨hlog, hbelow, fun key hmem _ => hbody key hmem⟩, fun hmisfit => ?_⟩
      by_contra haccept
      obtain ⟨key, hmem, hfits, hdh⟩ := openE2eLayer_accepts hlen haccept
      refine hmisfit ⟨hbody key hmem hdh hfits, keyFits_of_found ?_ hfits⟩
      rw [← (agree_envelope env).extractSenderKeyEx hlog hroom hkey]
      exact hmem

/-! ### Boxes that show their key -/

/-- A box whose MAC is the first half of its key, opened. -/
def openWith (key : Bytes 32) (cipher : List UInt8) : Option (List UInt8) :=
  if cipher.take 16 = key.toList.take 16 then some (cipher.drop 16) else none

/-- Boxes for which the DH adds bytes and a public key is its private key. -/
def symbolicBoxes : Boxes where
  boxPublic priv := priv
  beforenm pub priv := some (Vector.zipWith (· + ·) priv pub)
  scalarmult priv pub := some (Vector.zipWith (· + ·) priv pub)
  boxOpenAfternm shared _ cipher := openWith shared cipher
  boxOpen pub priv _ cipher := openWith (Vector.zipWith (· + ·) priv pub) cipher
  secretboxOpen key _ cipher := openWith key cipher
  simplexSecretboxOpen key _ cipher := openWith key cipher

/-- A block of 60 bytes whose envelope has no key, with a length prefix. -/
def sampleBlock (len : UInt8) : List UInt8 :=
  [0x00, len] ++ List.replicate 12 0 ++ 0x30 :: List.replicate 45 0

/-- A call for such a block, with a key from before. -/
def sampleCall (len : UInt8) : EnvelopeCall where
  msg := { encrypted := List.replicate 16 0 ++ sampleBlock len, msgId := [] }
  sharedSecret := zeroBytes 32
  e2ePrivate := zeroBytes 32
  cached := some (zeroBytes 32)

/-- An envelope that is all of the block behind the prefix is read inside it. -/
theorem envelope_inside_iff_covered_whole :
    StaysInside symbolicBoxes (sampleCall 58) (sampleBlock 58) :=
  (envelope_inside_iff_covered symbolicBoxes (sampleCall 58) (sampleBlock 58) rfl).2
    { lengthBytes := by decide
      markerBytes := by decide
      loggedBytes := by decide
      key := by
        intro _ _ _ _
        exact (by decide : declaredLen (sampleBlock 58) ≤ blockRoom (sampleBlock 58)) }

/-- A block that declares 100 bytes and has 58 is read beyond its end. -/
theorem envelope_overlong_read :
    ¬ ∀ (B : Boxes) (call : EnvelopeCall) (plain : List UInt8),
      B.boxOpenAfternm call.sharedSecret call.msg.serverNonce call.msg.encrypted = some plain →
        StaysInside B call plain := by
  intro h
  have hread := (h symbolicBoxes (sampleCall 100) (sampleBlock 100) rfl
    { serverAlloc := true, serverJunk := fun _ => 0, plainAlloc := true
      methodAlloc := true }).1 (.read 60) (by decide)
  exact absurd (show 60 < (sampleBlock 100).length from hread) (by decide)

end SimpleGo.EnvelopeInput
