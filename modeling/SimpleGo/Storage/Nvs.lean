import SimpleGo.Contacts.Records
import SimpleGo.Ratchet.State
import SimpleGo.Lib.Store
import SimpleGo.Lib.Strings

/-!
# NVS blobs and their keys

Every module keeps its state in one NVS namespace under keys it formats itself: a prefix
and the slot number, in decimal for the ratchet and in hexadecimal elsewhere. A blob that is
the memory of a struct stays that struct; every other blob is its bytes.
-/

namespace SimpleGo

open Lib

variable {K : Type}

/-- `%02x` of a byte. -/
def fmt02x (n : ℕ) : String := String.ofList [Nat.digitChar (n / 16), Nat.digitChar (n % 16)]

/-- `%02u` of a byte. -/
def fmt02u (n : ℕ) : String :=
  if n < 100 then String.ofList [Nat.digitChar (n / 10), Nat.digitChar (n % 10)]
  else String.ofList [Nat.digitChar (n / 100), Nat.digitChar (n / 10 % 10), Nat.digitChar (n % 10)]

/-- `rat_%02u`. -/
def ratKey (idx : ℕ) : String := "rat_" ++ fmt02u idx

/-- `pq_%02x` with the suffix of a field. -/
def pqKey (idx : ℕ) (field : String) : String := "pq_" ++ fmt02x idx ++ field

/-- `peer_%02x`. -/
def peerKey (idx : ℕ) : String := "peer_" ++ fmt02x idx

/-- `hand_%02x`. -/
def handKey (idx : ℕ) : String := "hand_" ++ fmt02x idx

/-- `make_nvs_key` of the reply queues: `rq_%02x`. -/
def rqKey (idx : ℕ) : String := "rq_" ++ fmt02x idx

/-- `cnt_%02x`. -/
def cntKey (idx : ℕ) : String := "cnt_" ++ fmt02x idx

/-- A stored blob: the memory of a struct, or bytes. `handshake` has the struct's own `valid`
byte; `legacyContacts` is the table that earlier versions kept under one key. -/
inductive Blob (K : Type) where
  | ratchet (classical : RatchetClassical K)
  | bytes (b : List UInt8)
  | contact (c : Contact)
  | legacyContacts (count : UInt8) (contacts : List Contact)
  | peer (p : PeerQueue)
  | replyQueue (q : ReplyQueue)
  | handshake (h : HandshakeEntry) (valid : UInt8)
  | ourQueue (q : OurQueue)

/-- The NVS namespace. -/
abbrev Nvs (K : Type) := Store String (Blob K)

/-- `smp_storage_exists`: there is a blob and it is not empty. -/
def smpStorageExists (nvs : Nvs K) (key : String) : Bool :=
  match nvs key with
  | none => false
  | some (.bytes []) => false
  | some _ => true

/-- `smp_storage_load_blob` into one byte, which keeps its value when the load fails. -/
def loadByte (nvs : Nvs K) (key : String) (old : UInt8) : UInt8 :=
  match nvs key with
  | some (.bytes [b]) => b
  | _ => old

/-- `smp_storage_load_blob` into an array: a shorter blob fills a prefix, a longer one fails. -/
def loadArray {n : ℕ} (nvs : Nvs K) (key : String) (old : Bytes n) : Bytes n :=
  match nvs key with
  | some (.bytes b) => if b.length ≤ n then overwrite old b else old
  | _ => old

/-- Keys of different families start with different letters. -/
theorem ratKey_ne_pqKey (i j : ℕ) (field : String) : ratKey i ≠ pqKey j field := by
  intro h
  have hl := congrArg String.toList h
  simp [ratKey, pqKey] at hl

/-- The PQ keys of a slot are told apart by their field. -/
@[simp] theorem pqKey_inj {i : ℕ} {f f' : String} : pqKey i f = pqKey i f' ↔ f = f' :=
  String.append_right_inj _

/-- Digits below 16 are distinct. -/
theorem digitChar_inj {a b : ℕ} (ha : a < 16) (hb : b < 16)
    (h : Nat.digitChar a = Nat.digitChar b) : a = b := by
  have hall : ∀ a : Fin 16, ∀ b : Fin 16,
      Nat.digitChar a = Nat.digitChar b → a = b := by decide
  exact congrArg Fin.val (hall ⟨a, ha⟩ ⟨b, hb⟩ h)

/-- A two-digit string determines its digits. -/
theorem twoDigits_inj {a b c d : ℕ} (ha : a < 16) (hb : b < 16) (hc : c < 16) (hd : d < 16)
    (h : String.ofList [Nat.digitChar a, Nat.digitChar b] =
      String.ofList [Nat.digitChar c, Nat.digitChar d]) : a = c ∧ b = d := by
  obtain ⟨hfirst, htail⟩ := List.cons.inj (String.ofList_injective h)
  exact ⟨digitChar_inj ha hc hfirst, digitChar_inj hb hd (List.cons.inj htail).1⟩

/-- Bytes have different hexadecimal representations. -/
theorem fmt02x_inj {a b : ℕ} (ha : a < 256) (hb : b < 256) (h : fmt02x a = fmt02x b) : a = b := by
  obtain ⟨hhigh, hlow⟩ := twoDigits_inj (by omega) (by omega) (by omega) (by omega) h
  omega

/-- A hexadecimal representation is also a decimal one when both digits are decimal. -/
theorem fmt02x_eq_fmt02u {a b : ℕ} (ha : a < 160) :
    fmt02x a = fmt02u b ↔ a % 16 < 10 ∧ b = 10 * (a / 16) + a % 16 := by
  by_cases hb : b < 100
  · rw [fmt02u, if_pos hb]
    constructor
    · intro h
      obtain ⟨hhigh, hlow⟩ := twoDigits_inj (by omega) (by omega) (by omega) (by omega) h
      omega
    · rintro ⟨hlow, rfl⟩
      have htens : (10 * (a / 16) + a % 16) / 10 = a / 16 := by omega
      have hones : (10 * (a / 16) + a % 16) % 10 = a % 16 := by omega
      rw [htens, hones, fmt02x]
  · rw [fmt02u, if_neg hb]
    constructor
    · intro h
      have hlen := congrArg List.length (String.ofList_injective h)
      simp at hlen
    · omega

/-- Slots have different decimal representations. -/
theorem fmt02u_inj {a b : ℕ} (ha : a < 1000) (hb : b < 1000) (h : fmt02u a = fmt02u b) :
    a = b := by
  unfold fmt02u at h
  by_cases ha' : a < 100 <;> by_cases hb' : b < 100 <;>
    simp only [ha', hb', if_true, if_false] at h
  · obtain ⟨htens, hones⟩ := twoDigits_inj (by omega) (by omega) (by omega) (by omega) h
    omega
  · have hlen := congrArg List.length (String.ofList_injective h)
    simp at hlen
  · have hlen := congrArg List.length (String.ofList_injective h)
    simp at hlen
  · obtain ⟨h₁, htail⟩ := List.cons.inj (String.ofList_injective h)
    obtain ⟨h₂, htail⟩ := List.cons.inj htail
    have e₁ := digitChar_inj (by omega) (by omega) h₁
    have e₂ := digitChar_inj (by omega) (by omega) h₂
    have e₃ := digitChar_inj (by omega) (by omega) (List.cons.inj htail).1
    omega

/-- Slots have different contact keys. -/
theorem cntKey_inj {i j : ℕ} (hi : i < 256) (hj : j < 256) (h : cntKey i = cntKey j) : i = j :=
  fmt02x_inj hi hj ((String.append_right_inj _).mp h)

end SimpleGo
