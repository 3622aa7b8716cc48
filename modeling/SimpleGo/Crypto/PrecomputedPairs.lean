import Mathlib.Data.List.Perm.Subperm
import SimpleGo.Crypto.RequestTask

/-!
# The precomputed key pair

One pair of buffers holds the key pair that the crypto task makes in the background; a flag says
that it is there. The crypto task fills the buffers and sets the flag under a mutex, and a caller
copies them out, wipes them and clears the flag under the same mutex; both look at the flag before
they lock. Callers that find no pair ask for one as any other operation.

The steps here are the accesses to what is shared, each half of a pair on its own, on top of the
requests to the crypto task. The flag is whether `precomp` holds a pair there; which pair it then
is, is not looked at.
-/

namespace SimpleGo.PqCrypto

open Lib

/-- A public and a secret key. -/
abbrev KeyPair := List UInt8 × List UInt8

/-! ### State -/

/-- Who holds `s_precomp_mutex`. -/
inductive MutexHolder where
  | crypto
  | call (c : ℕ)
  deriving DecidableEq

/-- Where `handle_precompute` is while it has the mutex. -/
inductive StorePhase where
  | copyPk
  | copySk
  | setReady
  | give
  deriving DecidableEq

/-- Where a call of `pq_crypto_get_precomputed` is. -/
inductive TakePhase where
  /-- In `xSemaphoreTake`. -/
  | locking
  /-- Before the second look at the flag. -/
  | locked
  | copyPk
  | copySk
  | wipe
  | clear
  /-- Before `xSemaphoreGive`. -/
  | give (taken : Bool)
  | leaving (taken : Bool)
  | returned
  deriving DecidableEq

/-- A call of `pq_crypto_get_precomputed` with its buffers. -/
structure TakeCall where
  pk : ℕ
  sk : ℕ
  phase : TakePhase
  deriving DecidableEq

/-- The call that returned a pair. -/
inductive PairReturn where
  /-- A `pq_crypto_keygen`. -/
  | keygen (c : ℕ)
  /-- A `pq_crypto_get_precomputed`. -/
  | taken (c : ℕ)
  deriving DecidableEq

/-- The requests, the precomputed pair, and the key pairs that were generated and returned. -/
structure PairState where
  pq : PqState
  /-- `s_precomp_pk`. -/
  precompPk : List UInt8
  /-- `s_precomp_sk`. -/
  precompSk : List UInt8
  mutex : Option MutexHolder
  store : Option StorePhase
  takes : ℕ → Option TakeCall
  /-- The call of `pq_crypto_get_precomputed` in progress that a buffer was given to. -/
  takeOwner : ℕ → Option ℕ
  /-- The key generations that succeeded, each with the call it was for; none in the
  background. -/
  generated : List (Option ℕ × KeyPair)
  /-- The pairs found in the buffers of a call when it returned success. -/
  returned : List (PairReturn × KeyPair)
  /-- The pair that was marked as consumed by a call. -/
  consumed : List (ℕ × KeyPair)

namespace PairState

/-- The device before `pq_crypto_task_init`. -/
def boot (mem : ℕ → List UInt8) : PairState where
  pq := .boot mem
  precompPk := List.replicate 1158 0
  precompSk := List.replicate 1763 0
  mutex := none
  store := none
  takes := fun _ => none
  takeOwner := fun _ => none
  generated := []
  returned := []
  consumed := []

variable (K : Sntrup761) (s : PairState)

/-! ### Taking a pair -/

/-- No call in progress has the buffer. -/
def FreeBuffer (a : ℕ) : Prop := s.pq.owner a = none ∧ s.takeOwner a = none

instance (a : ℕ) : Decidable (s.FreeBuffer a) := inferInstanceAs (Decidable (_ ∧ _))

/-- A call goes on. -/
def setPhase (c : ℕ) (t : TakeCall) (phase : TakePhase) : PairState :=
  { s with takes := Function.update s.takes c (some { t with phase := phase }) }

/-- `pq_crypto_get_precomputed` up to its first look at the flag. The caller owns the memory it
passes. -/
def take (c pk sk : ℕ) : PairState :=
  if s.takes c = none ∧ pk ≠ sk ∧ s.FreeBuffer pk ∧ s.FreeBuffer sk then
    { s with
      takes := Function.update s.takes c
        (some ⟨pk, sk, if s.pq.precomp.isSome then .locking else .leaving false⟩)
      takeOwner := Function.update (Function.update s.takeOwner pk (some c)) sk (some c) }
  else s

/-- `memcpy` into a buffer of the caller. -/
def copyOut (a : ℕ) (key : List UInt8) : PairState :=
  { s with pq := { s.pq with mem := Function.update s.pq.mem a key } }

/-- The call returns; its memory is the caller's again. -/
def leaveTake (c : ℕ) (t : TakeCall) (taken : Bool) : PairState :=
  { s.setPhase c t .returned with
    takeOwner := Function.update (Function.update s.takeOwner t.pk none) t.sk none
    returned := if taken then (.taken c, (s.pq.mem t.pk, s.pq.mem t.sk)) :: s.returned
      else s.returned }

/-- One step of `pq_crypto_get_precomputed`. -/
def takeStep (c : ℕ) : PairState :=
  match s.takes c with
  | none => s
  | some t =>
    match t.phase with
    | .locking =>
      if s.mutex = none then { s.setPhase c t .locked with mutex := some (.call c) } else s
    | .locked =>
      if s.pq.precomp.isSome then s.setPhase c t .copyPk else s.setPhase c t (.give false)
    | .copyPk => (s.copyOut t.pk s.precompPk).setPhase c t .copySk
    | .copySk => (s.copyOut t.sk s.precompSk).setPhase c t .wipe
    | .wipe =>
      { s.setPhase c t .clear with
        precompPk := List.replicate 1158 0
        precompSk := List.replicate 1763 0 }
    | .clear =>
      { s.setPhase c t (.give true) with
        pq := s.pq.getPrecomputed
        consumed := (s.pq.precomp.map fun pair => (c, pair)).toList ++ s.consumed }
    | .give taken => { s.setPhase c t (.leaving taken) with mutex := none }
    | .leaving taken => s.leaveTake c t taken
    | .returned => s

/-! ### The crypto task and the requests -/

/-- The pair that the next step of the crypto task generates, and the call it is for. -/
def generatedBy (coins : List UInt8) : Option (Option ℕ × KeyPair) :=
  match s.pq.task with
  | .received req =>
    if (K.keypair coins).2 ≠ 0 then none
    else match req.op with
    | none => if s.pq.precomp.isSome then none else some (none, (K.keypair coins).1)
    | some (.keygen _ _) => some (req.call, (K.keypair coins).1)
    | some _ => none
  | _ => none

/-- The steps of `handle_precompute` that store a generated pair. -/
def storeStep (pair : KeyPair) (coins : List UInt8) : PairState :=
  match s.store with
  | none =>
    if s.mutex = none then { s with mutex := some .crypto, store := some .copyPk } else s
  | some .copyPk => { s with precompPk := pair.1, store := some .copySk }
  | some .copySk => { s with precompSk := pair.2, store := some .setReady }
  | some .setReady => { s with pq := s.pq.cryptoStep K coins, store := some .give }
  | some .give => s

/-- One step of the crypto task. -/
def cryptoStep (coins : List UInt8) : PairState :=
  if s.store = some .give then { s with mutex := none, store := none }
  else
    match s.pq.task with
    | .publishing _ pair 0 => s.storeStep K pair coins
    | _ =>
      { s with
        pq := s.pq.cryptoStep K coins
        generated := (s.generatedBy K coins).toList ++ s.generated }

/-- What a waiting `pq_crypto_keygen` returns when it finds its semaphore given. -/
def keygenReturn (c : ℕ) : Option (PairReturn × KeyPair) :=
  match s.pq.calls c with
  | some (.waiting f) =>
    match f.op with
    | .keygen pk sk =>
      if (s.pq.sems f.done).any DoneSem.given ∧ s.pq.results f.result = 0 then
        some (.keygen c, (s.pq.mem pk, s.pq.mem sk))
      else none
    | _ => none
  | _ => none

/-- A step of the requests. A call is given no buffers that another one has, and a caller writes to
none of these; the taking of a pair in one step is replaced by the steps above. -/
def requestStep : PqLabel → PairState
  | .getPrecomputed => s
  | .crypto coins => s.cryptoStep K coins
  | .call c f semCreated =>
    if ∀ a ∈ f.op.buffers, s.takeOwner a = none then
      { s with pq := s.pq.submitRequest c f semCreated }
    else s
  | .semaphoreTake c =>
    { s with
      pq := s.pq.semaphoreTake c
      returned := (s.keygenReturn c).toList ++ s.returned }
  | .fill a value =>
    if s.takeOwner a = none then { s with pq := s.pq.fillBuffer a value } else s
  | label => { s with pq := s.pq.step K label }

end PairState

/-! ### Runs -/

/-- A step of a caller or of the crypto task. -/
inductive PairLabel where
  | request (label : PqLabel)
  | take (c pk sk : ℕ)
  | takeStep (c : ℕ)

namespace PairState

/-- One step. -/
def step (K : Sntrup761) (s : PairState) : PairLabel → PairState
  | .request label => s.requestStep K label
  | .take c pk sk => s.take c pk sk
  | .takeStep c => s.takeStep c

/-- The step is no waiting time that runs out. -/
def InTime (s : PairState) : PairLabel → Prop
  | .request label => s.pq.InTime label
  | .take _ _ _ | .takeStep _ => True

instance (s : PairState) : (label : PairLabel) → Decidable (s.InTime label)
  | .request label => inferInstanceAs (Decidable (s.pq.InTime label))
  | .take _ _ _ | .takeStep _ => isTrue trivial

/-- Each returned pair is one that was generated, and none of them is returned twice. -/
def Sound (s : PairState) : Prop :=
  (s.returned.map Prod.snd).Subperm (s.generated.map Prod.snd)

end PairState

/-! ### The requests below -/

variable {K : Sntrup761} {s s' : PqState}

/-- The call has queued its request, or has returned. -/
def PqState.Begun (s : PqState) (c : ℕ) : Prop :=
  (∃ f, s.calls c = some (.waiting f)) ∨ s.calls c = some .returned

/-- A step that executes nothing: the calls go on from sending over waiting to returned. -/
structure Moves (s s' : PqState) : Prop where
  executed : ∀ c coins, .executed c coins ∈ s'.log → .executed c coins ∈ s.log
  waiting : ∀ c f, s'.calls c = some (.waiting f) →
    s.calls c = some (.waiting f) ∨ s.calls c = some (.sending f)
  begun : ∀ c, s.Begun c → s'.Begun c
  returned : ∀ c, s.calls c = some .returned → s'.calls c = some .returned

/-- No call moves. -/
theorem Moves.of_calls (hcalls : s'.calls = s.calls)
    (hlog : ∀ c coins, .executed c coins ∈ s'.log → .executed c coins ∈ s.log) : Moves s s' where
  executed := hlog
  waiting c f hc := .inl (hcalls ▸ hc)
  begun c hc := by rwa [PqState.Begun, hcalls]
  returned c hc := by rwa [hcalls]

/-- One call moves: it queues its request, it starts, or it returns. -/
theorem Moves.of_call {c : ℕ} {x : PqCall} (hcalls : s'.calls = Function.update s.calls c (some x))
    (hlog : ∀ c coins, .executed c coins ∈ s'.log → .executed c coins ∈ s.log)
    (hwaiting : ∀ f, x = .waiting f → s.calls c = some (.sending f))
    (hbegun : s.Begun c → x = .returned) : Moves s s' where
  executed := hlog
  waiting d f hd := by
    rw [hcalls] at hd
    by_cases hdc : d = c
    · subst hdc
      rw [Function.update_self] at hd
      exact .inr (hwaiting f (Option.some.inj hd))
    · rw [Function.update_of_ne hdc] at hd
      exact .inl hd
  begun d hd := by
    rw [PqState.Begun, hcalls]
    by_cases hdc : d = c
    · subst hdc
      rw [Function.update_self]
      exact .inr (congrArg some (hbegun hd))
    · rwa [Function.update_of_ne hdc]
  returned d hd := by
    rw [hcalls]
    by_cases hdc : d = c
    · subst hdc
      rw [Function.update_self, hbegun (.inr hd)]
    · rwa [Function.update_of_ne hdc]

/-- An event that is no execution adds none to the log. -/
theorem executed_of_cons {log : List PqEvent} {event : PqEvent} {d : ℕ} {coins : List UInt8}
    (hevent : event ≠ .executed d coins) (h : .executed d coins ∈ event :: log) :
    .executed d coins ∈ log :=
  (List.mem_cons.1 h).resolve_left hevent.symm

/-- A call returns. -/
theorem Moves.of_return {c : ℕ} {code : PqErr} {contents : List (List UInt8)}
    (hcalls : s'.calls = Function.update s.calls c (some .returned))
    (hlog : s'.log = .returned c code contents :: s.log) : Moves s s' := by
  refine .of_call hcalls (fun d coins hexec => ?_) (fun f hreturned => ?_) fun _ => rfl
  · rw [hlog] at hexec
    refine executed_of_cons (fun heq => ?_) hexec
    cases heq
  · cases hreturned

/-- What the crypto task notes besides an execution. -/
theorem executed_note {req : PqRequest} (event : ℕ → PqEvent) {d : ℕ} {coins : List UInt8}
    (hevent : ∀ c, event c ≠ .executed d coins) (h : .executed d coins ∈ s.note req event) :
    .executed d coins ∈ s.log := by
  rw [PqState.note] at h
  split at h
  · exact h
  · exact (List.mem_cons.1 h).resolve_left fun heq => hevent _ heq.symm

/-- A call that returns has moved. -/
theorem Moves.finish (s : PqState) (c : ℕ) (f : SubmitFrame) (code : PqErr) :
    Moves s (s.finish c f code) := .of_return rfl rfl

/-- Nothing has moved. -/
theorem Moves.refl (s : PqState) : Moves s s := .of_calls rfl fun _ _ h => h

/-- A step of a caller executes nothing. -/
theorem Moves.step (K : Sntrup761) (s : PqState) {label : PqLabel}
    (hlabel : ∀ coins, label ≠ .crypto coins) : Moves s (s.step K label) := by
  cases label with
  | init ok => exact .of_calls rfl fun _ _ h => h
  | call c f semCreated =>
    rw [PqState.step, PqState.submitRequest]
    have hleave : ∀ code, Moves s (s.leave c f.op code) := fun code => .of_return rfl rfl
    split_ifs with hnew _ _ hfree
    · exact .refl s
    · exact hleave _
    · exact hleave _
    · refine .of_call rfl (fun d coins hexec => ?_) (fun g hsending => ?_) fun hbegun => ?_
      · refine executed_of_cons (fun heq => ?_) hexec
        cases heq
      · cases hsending
      · rw [ne_eq, not_not] at hnew
        rw [PqState.Begun, hnew] at hbegun
        simp at hbegun
    · exact .refl s
  | queueSend c =>
    rw [PqState.step, PqState.queueSend]
    split
    · rename_i f hc
      split_ifs
      · refine .of_call rfl (fun _ _ h => h) (fun g hg => ?_) fun hbegun => ?_
        · cases hg
          exact hc
        · rw [PqState.Begun, hc] at hbegun
          simp at hbegun
      · exact .refl s
    · exact .refl s
  | queueFull c =>
    rw [PqState.step, PqState.queueFull]
    split
    · split_ifs
      · exact .refl s
      · exact .finish ..
    · exact .refl s
  | semaphoreTake c =>
    rw [PqState.step, PqState.semaphoreTake]
    split
    · split_ifs
      · exact .finish ..
      · exact .finish ..
      · exact .refl s
    · exact .refl s
  | waitTimeout c =>
    rw [PqState.step, PqState.waitTimeout]
    split
    · split_ifs
      · exact .finish ..
      · exact .refl s
    · exact .refl s
  | crypto coins => exact absurd rfl (hlabel coins)
  | precompute =>
    rw [PqState.step, PqState.precomputeKeypair]
    split_ifs
    · exact .refl s
    · exact .of_calls rfl fun _ _ h => h
    · exact .refl s
  | getPrecomputed => exact .of_calls rfl fun _ _ h => h
  | fill a value =>
    rw [PqState.step, PqState.fillBuffer]
    split_ifs
    · exact .of_calls rfl fun _ _ h => h
    · exact .refl s

/-- What is left alone where a taken pair is concerned: the flag, and the memory and the ownership
of the buffers that no request has. -/
structure LeavesTakes (s s' : PqState) (buffers : Set ℕ) : Prop where
  precomp : s'.precomp = s.precomp
  mem : ∀ a ∈ buffers, s.owner a = none → s'.mem a = s.mem a
  owner : ∀ a ∈ buffers, s.owner a = none → s'.owner a = none

/-- Nothing has changed. -/
theorem LeavesTakes.refl (s : PqState) (buffers : Set ℕ) : LeavesTakes s s buffers :=
  ⟨rfl, fun _ _ _ => rfl, fun _ _ h => h⟩

/-- A call that returns gives its own buffers back. -/
theorem LeavesTakes.finish (s : PqState) (c : ℕ) (f : SubmitFrame) (code : PqErr)
    (buffers : Set ℕ) : LeavesTakes s (s.finish c f code) buffers := by
  refine ⟨rfl, fun _ _ _ => rfl, fun a _ ha => ?_⟩
  change (if a ∈ f.op.buffers then none else s.owner a) = none
  split_ifs
  · rfl
  · exact ha

/-- A step of a caller leaves the buffers alone that it is not given, and the crypto task where it
is. -/
theorem LeavesTakes.step (K : Sntrup761) (s : PqState) {label : PqLabel} {buffers : Set ℕ}
    (hlabel : ∀ coins, label ≠ .crypto coins) (hget : label ≠ .getPrecomputed)
    (hcall : ∀ c f semCreated, label = .call c f semCreated → ∀ a ∈ f.op.buffers, a ∉ buffers)
    (hfill : ∀ a value, label = .fill a value → a ∉ buffers) :
    LeavesTakes s (s.step K label) buffers ∧ (s.step K label).task = s.task := by
  cases label with
  | init ok => exact ⟨⟨rfl, fun _ _ _ => rfl, fun _ _ h => h⟩, rfl⟩
  | call c f semCreated =>
    rw [PqState.step, PqState.submitRequest]
    split_ifs with hnew _ _ hfree
    · exact ⟨.refl .., rfl⟩
    · exact ⟨⟨rfl, fun _ _ _ => rfl, fun _ _ h => h⟩, rfl⟩
    · exact ⟨⟨rfl, fun _ _ _ => rfl, fun _ _ h => h⟩, rfl⟩
    · refine ⟨⟨rfl, fun _ _ _ => rfl, fun a hin ha => ?_⟩, rfl⟩
      exact (if_neg fun hmem => hcall c f semCreated rfl a hmem hin).trans ha
    · exact ⟨.refl .., rfl⟩
  | queueSend c =>
    rw [PqState.step, PqState.queueSend]
    split
    · split_ifs
      · exact ⟨⟨rfl, fun _ _ _ => rfl, fun _ _ h => h⟩, rfl⟩
      · exact ⟨.refl .., rfl⟩
    · exact ⟨.refl .., rfl⟩
  | queueFull c =>
    rw [PqState.step, PqState.queueFull]
    split
    · split_ifs
      · exact ⟨.refl .., rfl⟩
      · exact ⟨.finish .., rfl⟩
    · exact ⟨.refl .., rfl⟩
  | semaphoreTake c =>
    rw [PqState.step, PqState.semaphoreTake]
    split
    · split_ifs
      · exact ⟨.finish .., rfl⟩
      · exact ⟨.finish .., rfl⟩
      · exact ⟨.refl .., rfl⟩
    · exact ⟨.refl .., rfl⟩
  | waitTimeout c =>
    rw [PqState.step, PqState.waitTimeout]
    split
    · split_ifs
      · exact ⟨.finish .., rfl⟩
      · exact ⟨.refl .., rfl⟩
    · exact ⟨.refl .., rfl⟩
  | crypto coins => exact absurd rfl (hlabel coins)
  | precompute =>
    rw [PqState.step, PqState.precomputeKeypair]
    split_ifs
    · exact ⟨.refl .., rfl⟩
    · exact ⟨⟨rfl, fun _ _ _ => rfl, fun _ _ h => h⟩, rfl⟩
    · exact ⟨.refl .., rfl⟩
  | getPrecomputed => exact absurd rfl hget
  | fill a value =>
    rw [PqState.step, PqState.fillBuffer]
    split_ifs
    · refine ⟨⟨rfl, fun b hin _ => Function.update_of_ne ?_ _ _, fun _ _ h => h⟩, rfl⟩
      rintro rfl
      exact hfill b value rfl hin
    · exact ⟨.refl .., rfl⟩

/-- The crypto task writes to buffers that a waiting call has. -/
theorem Inv.writing_owned (h : Inv K s) {req : PqRequest} {a : ℕ} {value : List UInt8}
    {todo : List (ℕ × List UInt8)} {ret : ℤ}
    (htask : s.task = .writing req ((a, value) :: todo) ret) : ∃ c, s.owner a = some c := by
  have hreq : req ∈ s.outstanding := by simp [PqState.outstanding, htask, CryptoPhase.request]
  have hinv := h.task
  rw [htask] at hinv
  rcases h.outstanding req hreq with rfl | ⟨c, f, hc, rfl⟩
  · cases hinv.1
  · obtain ⟨-, outs, -, -, htodo, -⟩ := hinv.2 c f rfl
    have houtput : a ∈ f.op.outputs := (List.of_mem_zip (htodo _ List.mem_cons_self)).1
    have hbuffer := PqOp.mem_buffers_of_outputs houtput
    rcases h.waiting c f hc with ⟨hf, -⟩ | ⟨hf, -⟩
    · exact ⟨c, hf.owned a hbuffer⟩
    · exact ⟨c, hf.owned a hbuffer⟩

/-- Unless it stores a generated pair, the crypto task leaves the flag and the buffers alone that
no request has. -/
theorem LeavesTakes.cryptoStep (h : Inv K s) (hstore : ∀ req pair, s.task ≠ .publishing req pair 0)
    (coins : List UInt8) (buffers : Set ℕ) : LeavesTakes s (s.cryptoStep K coins) buffers := by
  rw [PqState.cryptoStep]
  cases htask : s.task with
  | receiving => cases s.queue <;> exact ⟨rfl, fun _ _ _ => rfl, fun _ _ h => h⟩
  | received req =>
    dsimp only
    cases req.op with
    | none =>
      dsimp only
      split <;> exact ⟨rfl, fun _ _ _ => rfl, fun _ _ h => h⟩
    | some op => exact ⟨rfl, fun _ _ _ => rfl, fun _ _ h => h⟩
  | writing req todo ret =>
    cases todo with
    | nil => exact ⟨rfl, fun _ _ _ => rfl, fun _ _ h => h⟩
    | cons w todo =>
      obtain ⟨c, howner⟩ := h.writing_owned htask
      refine ⟨rfl, fun a _ ha => Function.update_of_ne ?_ _ _, fun _ _ h => h⟩
      rintro rfl
      rw [howner] at ha
      cases ha
  | publishing req pair ret =>
    have hret : ret ≠ 0 := by
      rintro rfl
      exact hstore req pair htask
    exact ⟨if_neg hret, fun _ _ _ => rfl, fun _ _ h => h⟩
  | signaling req => exact ⟨rfl, fun _ _ _ => rfl, fun _ _ h => h⟩

/-- The calls stay where they are in a step of the crypto task. -/
theorem cryptoStep_calls (K : Sntrup761) (s : PqState) (coins : List UInt8) :
    (s.cryptoStep K coins).calls = s.calls := by
  rw [PqState.cryptoStep]
  cases s.task with
  | receiving => cases s.queue <;> rfl
  | received req =>
    dsimp only
    cases req.op with
    | none =>
      dsimp only
      split <;> rfl
    | some op => rfl
  | writing req todo ret => cases todo <;> rfl
  | publishing req pair ret => rfl
  | signaling req => rfl

/-- An execution is noted for the waiting call whose request the crypto task has taken. -/
theorem Inv.executed_of_cryptoStep (h : Inv K s) {coins coins' : List UInt8} {c : ℕ}
    (hexec : .executed c coins' ∈ (s.cryptoStep K coins).log) :
    .executed c coins' ∈ s.log ∨ coins' = coins ∧
      ∃ f, s.calls c = some (.waiting f) ∧ s.task = .received (f.request c) := by
  rw [PqState.cryptoStep] at hexec
  cases htask : s.task with
  | receiving =>
    rw [htask] at hexec
    cases hqueue : s.queue <;> rw [hqueue] at hexec <;> exact .inl hexec
  | received req =>
    have hreq : req ∈ s.outstanding := by simp [PqState.outstanding, htask, CryptoPhase.request]
    rw [htask] at hexec
    rcases h.outstanding req hreq with rfl | ⟨d, f, hd, rfl⟩
    · refine .inl ?_
      dsimp only [precomputeRequest] at hexec
      split at hexec <;> exact hexec
    · rcases List.mem_cons.1 hexec with heq | hold
      · cases heq
        exact .inr ⟨rfl, f, hd, rfl⟩
      · exact .inl hold
  | writing req todo ret =>
    rw [htask] at hexec
    cases todo with
    | nil => exact .inl (executed_note .stored (fun _ => by rintro ⟨⟩) hexec)
    | cons w todo =>
      exact .inl (executed_note (fun d => .wrote d w.1) (fun _ => by rintro ⟨⟩) hexec)
  | publishing req pair ret =>
    rw [htask] at hexec
    exact .inl hexec
  | signaling req =>
    rw [htask] at hexec
    exact .inl (executed_note .gave (fun _ => by rintro ⟨⟩) hexec)

/-! ### On-demand pairs -/

/-- Every execution of a waiting `pq_crypto_keygen` is among the generated pairs, and what such a
call has returned was generated for it. -/
structure Ledger (K : Sntrup761) (s : PairState) : Prop where
  begun : ∀ c coins, .executed c coins ∈ s.pq.log → s.pq.Begun c
  keygen : ∀ c f pk sk coins, s.pq.calls c = some (.waiting f) → f.op = .keygen pk sk →
    .executed c coins ∈ s.pq.log → (K.keypair coins).2 = 0 →
      (some c, (K.keypair coins).1) ∈ s.generated
  returned : ∀ c pair, (.keygen c, pair) ∈ s.returned →
    s.pq.calls c = some .returned ∧ (some c, pair) ∈ s.generated

/-- A step that executes nothing keeps the ledger. -/
theorem Ledger.moves {s s' : PairState} (h : Ledger K s) (hmoves : Moves s.pq s'.pq)
    (hgenerated : s'.generated = s.generated)
    (hreturned : ∀ c pair, (.keygen c, pair) ∈ s'.returned → (.keygen c, pair) ∈ s.returned ∨
      s'.pq.calls c = some .returned ∧ (some c, pair) ∈ s.generated) : Ledger K s' where
  begun c coins hexec := hmoves.begun c (h.begun c coins (hmoves.executed c coins hexec))
  keygen c f pk sk coins hc hop hexec hret := by
    have hold := hmoves.executed c coins hexec
    rw [hgenerated]
    rcases hmoves.waiting c f hc with hwaiting | hsending
    · exact h.keygen c f pk sk coins hwaiting hop hold hret
    · -- a request that was not in the queue has not been executed
      have hbegun := h.begun c coins hold
      rw [PqState.Begun, hsending] at hbegun
      simp at hbegun
  returned c pair hmem := by
    rw [hgenerated]
    rcases hreturned c pair hmem with hold | hnew
    · obtain ⟨hc, hgen⟩ := h.returned c pair hold
      exact ⟨hmoves.returned c hc, hgen⟩
    · exact hnew

/-- A step of the crypto task keeps the ledger. -/
theorem Ledger.cryptoStep {s : PairState} (h : Ledger K s) (hinv : Inv K s.pq)
    (coins : List UInt8) :
    Ledger K { s with
      pq := s.pq.cryptoStep K coins
      generated := (s.generatedBy K coins).toList ++ s.generated } where
  begun c coins' hexec := by
    rw [PqState.Begun, cryptoStep_calls]
    rcases hinv.executed_of_cryptoStep hexec with hold | ⟨-, f, hc, -⟩
    · exact h.begun c coins' hold
    · exact .inl ⟨f, hc⟩
  keygen c f pk sk coins' hc hop hexec hret := by
    rw [cryptoStep_calls] at hc
    rcases hinv.executed_of_cryptoStep hexec with hold | ⟨rfl, g, hg, htask⟩
    · exact List.mem_append_right _ (h.keygen c f pk sk coins' hc hop hold hret)
    · have hgenerated : s.generatedBy K coins' = some (some c, (K.keypair coins').1) := by
        rw [hc] at hg
        cases hg
        simp [PairState.generatedBy, htask, hret, SubmitFrame.request, hop]
      rw [hgenerated]
      exact List.mem_append_left _ (List.mem_singleton.2 rfl)
  returned c pair hmem := by
    obtain ⟨hc, hgen⟩ := h.returned c pair hmem
    rw [cryptoStep_calls]
    exact ⟨hc, List.mem_append_right _ hgen⟩

/-- A `pq_crypto_keygen` that returns success has a pair that was generated for it. -/
theorem Ledger.keygenReturn {s : PairState} (h : Ledger K s) (hinv : Inv K s.pq) {c : ℕ}
    {ret : PairReturn} {pair : KeyPair} (hreturn : s.keygenReturn c = some (ret, pair)) :
    ret = .keygen c ∧ (some c, pair) ∈ s.generated ∧
      (s.pq.semaphoreTake c).calls c = some .returned := by
  rw [PairState.keygenReturn] at hreturn
  split at hreturn
  · rename_i f hc
    split at hreturn
    · rename_i pk sk hop
      split_ifs at hreturn with hgiven
      cases hreturn
      rcases hinv.waiting c f hc with ⟨hf, -⟩ | ⟨hf, hdone, -⟩
      · rw [hf.sem] at hgiven
        cases hgiven.1
      · obtain ⟨coins, hexec, hrun⟩ := hdone
        rw [hop, hgiven.2] at hrun
        have hpair : (K.keypair coins).1 = (s.pq.mem pk, s.pq.mem sk) ∧
            (K.keypair coins).2 = 0 := by
          simpa [PqOp.input, PqInput.run, PqOp.outputs, Prod.ext_iff] using hrun
        have hgen := h.keygen c f pk sk coins hc hop hexec hpair.2
        rw [hpair.1] at hgen
        refine ⟨rfl, hgen, ?_⟩
        rw [PqState.semaphoreTake, hc]
        dsimp only
        rw [if_pos hgiven.1]
        exact Function.update_self ..
    · cases hreturn
  · cases hreturn

/-! ### Taking a stored pair -/

/-- The phases between taking and giving the mutex. -/
def TakePhase.holdsMutex : TakePhase → Bool
  | .locked | .copyPk | .copySk | .wipe | .clear | .give _ => true
  | .locking | .leaving _ | .returned => false

/-- What a call has copied so far, or has consumed. -/
def TakeCall.Inv (s : PairState) (c : ℕ) (t : TakeCall) : Prop :=
  match t.phase with
  | .copyPk => s.pq.precomp.isSome = true
  | .copySk => ∃ pair, s.pq.precomp = some pair ∧ s.pq.mem t.pk = pair.1
  | .wipe | .clear =>
    ∃ pair, s.pq.precomp = some pair ∧ s.pq.mem t.pk = pair.1 ∧ s.pq.mem t.sk = pair.2
  | .give true | .leaving true =>
    ∃ pair, (c, pair) ∈ s.consumed ∧ s.pq.mem t.pk = pair.1 ∧ s.pq.mem t.sk = pair.2
  | .locking | .locked | .give false | .leaving false | .returned => True

/-- The mutex keeps the halves of the stored pair together. -/
structure Taking (s : PairState) : Prop where
  owner : ∀ a, s.takeOwner a ≠ none → s.pq.owner a = none
  owned : ∀ c t, s.takes c = some t → t.phase ≠ .returned →
    s.takeOwner t.pk = some c ∧ s.takeOwner t.sk = some c ∧ t.pk ≠ t.sk
  mutex : ∀ c t, s.takes c = some t → t.phase.holdsMutex = true → s.mutex = some (.call c)
  storing : s.store ≠ none → s.mutex = some .crypto
  publishing : s.store ≠ none → s.store ≠ some .give →
    ∃ req pair, s.pq.task = .publishing req pair 0 ∧
      (s.store ≠ some .copyPk → s.precompPk = pair.1) ∧
      (s.store = some .setReady → s.precompSk = pair.2)
  halves : s.store = none ∨ s.store = some .give →
    (∀ c t, s.takes c = some t → t.phase ≠ .clear) → ∀ pair, s.pq.precomp = some pair →
      s.precompPk = pair.1 ∧ s.precompSk = pair.2
  phase : ∀ c t, s.takes c = some t → t.Inv s c

/-- While a call has the mutex, the crypto task does not store. -/
theorem Taking.store_eq_none {s : PairState} (h : Taking s) {c : ℕ}
    (hmutex : s.mutex = some (.call c)) : s.store = none := by
  by_contra hstore
  rw [h.storing hstore] at hmutex
  cases hmutex

/-- Only one call has the mutex. -/
theorem Taking.eq_of_holdsMutex {s : PairState} (h : Taking s) {c d : ℕ} {t : TakeCall}
    (hmutex : s.mutex = some (.call c)) (hd : s.takes d = some t)
    (hholds : t.phase.holdsMutex = true) : d = c := by
  rw [h.mutex d t hd hholds] at hmutex
  cases hmutex
  rfl

/-- What a call has copied stays where the flag and its buffers do. -/
theorem TakeCall.Inv.of_same {s s' : PairState} {c : ℕ} {t : TakeCall} (h : t.Inv s c)
    (hprecomp : s'.pq.precomp = s.pq.precomp)
    (hmem : t.phase ≠ .returned → s'.pq.mem t.pk = s.pq.mem t.pk ∧ s'.pq.mem t.sk = s.pq.mem t.sk)
    (hconsumed : s.consumed ⊆ s'.consumed) : t.Inv s' c := by
  rw [TakeCall.Inv] at h ⊢
  cases hphase : t.phase with
  | copyPk =>
    rw [hphase] at h
    simpa only [hprecomp] using h
  | copySk =>
    rw [hphase] at h
    obtain ⟨hpk, hsk⟩ := hmem (by rw [hphase]; nofun)
    simpa only [hprecomp, hpk] using h
  | wipe | clear =>
    rw [hphase] at h
    obtain ⟨hpk, hsk⟩ := hmem (by rw [hphase]; nofun)
    simpa only [hprecomp, hpk, hsk] using h
  | give taken | leaving taken =>
    cases taken with
    | false => trivial
    | true =>
      rw [hphase] at h
      obtain ⟨hpk, hsk⟩ := hmem (by rw [hphase]; nofun)
      obtain ⟨pair, hin, hcopied⟩ := h
      exact ⟨pair, hconsumed hin, by rw [hpk, hsk]; exact hcopied⟩
  | locking | locked | returned => trivial

/-- A call without the mutex does not look at the flag. -/
theorem TakeCall.Inv.of_not_holding {s s' : PairState} {c : ℕ} {t : TakeCall} (h : t.Inv s c)
    (hnot : t.phase.holdsMutex = false) (hmem : s'.pq.mem = s.pq.mem)
    (hconsumed : s.consumed ⊆ s'.consumed) : t.Inv s' c := by
  rw [TakeCall.Inv] at h ⊢
  cases hphase : t.phase with
  | leaving taken =>
    cases taken with
    | false => trivial
    | true =>
      rw [hphase] at h
      obtain ⟨pair, hin, hcopied⟩ := h
      exact ⟨pair, hconsumed hin, by rw [hmem]; exact hcopied⟩
  | locking | returned => trivial
  | locked | copyPk | copySk | wipe | clear | give taken =>
    rw [hphase] at hnot
    cases hnot

/-- A step below that leaves the takes alone keeps them in order. -/
theorem Taking.leaves {s s' : PairState} (h : Taking s)
    (hleaves : LeavesTakes s.pq s'.pq { a | s.takeOwner a ≠ none })
    (htask : s.store ≠ none → s.store ≠ some .give → s'.pq.task = s.pq.task)
    (hsame : s' = { s with pq := s'.pq, generated := s'.generated, returned := s'.returned }) :
    Taking s' := by
  rw [hsame]
  refine ⟨fun a ha => hleaves.owner a ha (h.owner a ha), h.owned, h.mutex, h.storing, ?_, ?_, ?_⟩
  · intro hstore hgive
    obtain ⟨req, pair, hpub, hhalves⟩ := h.publishing hstore hgive
    exact ⟨req, pair, (htask hstore hgive).trans hpub, hhalves⟩
  · intro hstore hclear pair hpair
    exact h.halves hstore hclear pair (hleaves.precomp.symm.trans hpair)
  · intro c t hc
    refine (h.phase c t hc).of_same hleaves.precomp (fun hphase => ?_) (List.Subset.refl _)
    obtain ⟨hpk, hsk, -⟩ := h.owned c t hc hphase
    have hmem : ∀ a, s.takeOwner a = some c → s'.pq.mem a = s.pq.mem a := by
      intro a ha
      have howned : s.takeOwner a ≠ none := by rw [ha]; nofun
      exact hleaves.mem a howned (h.owner a howned)
    exact ⟨hmem _ hpk, hmem _ hsk⟩

/-- The crypto task gives the mutex back. -/
theorem Taking.giveMutex {s : PairState} (h : Taking s) (hstore : s.store = some .give) :
    Taking { s with mutex := none, store := none } where
  owner := h.owner
  owned := h.owned
  mutex c t hc hholds := by
    have hmutex := h.mutex c t hc hholds
    rw [h.storing (by rw [hstore]; nofun)] at hmutex
    cases hmutex
  storing hne := absurd rfl hne
  publishing hne := absurd rfl hne
  halves _ hclear pair hpair := h.halves (.inr hstore) hclear pair hpair
  phase := h.phase

/-- The crypto task stores a generated pair. -/
theorem Taking.storeStep {s : PairState} (h : Taking s) {req : PqRequest} {pair : KeyPair}
    (htask : s.pq.task = .publishing req pair 0) (coins : List UInt8) :
    Taking (s.storeStep K pair coins) := by
  have hpair : ∀ {req' pair'}, s.pq.task = .publishing req' pair' 0 → pair' = pair := by
    intro req' pair' htask'
    rw [htask] at htask'
    cases htask'
    rfl
  have hbusy : ∀ {phase : StorePhase}, phase ≠ .give →
      ¬ (some phase = none ∨ some phase = some .give) := by
    rintro phase hne (hnone | hgive)
    · cases hnone
    · exact hne (Option.some.inj hgive)
  rw [PairState.storeStep]
  cases hstore : s.store with
  | none =>
    dsimp only
    split_ifs with hmutex
    · refine ⟨h.owner, h.owned, fun c t hc hholds => ?_, fun _ => rfl, fun _ _ => ?_,
        fun hdone => absurd hdone (hbusy (by decide)), h.phase⟩
      · have hheld := h.mutex c t hc hholds
        rw [hmutex] at hheld
        cases hheld
      · exact ⟨req, pair, htask, fun hne => absurd rfl hne,
          fun hready => absurd (Option.some.inj hready) (by decide)⟩
    · exact h
  | some phase =>
    have hnone : s.store ≠ none := hstore ▸ Option.some_ne_none phase
    have hheld : s.mutex = some .crypto := h.storing hnone
    cases phase with
    | copyPk =>
      exact ⟨h.owner, h.owned, h.mutex, fun _ => hheld,
        fun _ _ => ⟨req, pair, htask, fun _ => rfl,
          fun hready => absurd (Option.some.inj hready) (by decide)⟩,
        fun hdone => absurd hdone (hbusy (by decide)), h.phase⟩
    | copySk =>
      obtain ⟨req', pair', htask', hpk, -⟩ := h.publishing hnone (by rw [hstore]; decide)
      obtain rfl := hpair htask'
      exact ⟨h.owner, h.owned, h.mutex, fun _ => hheld, fun _ _ => ⟨req, pair', htask,
        fun _ => hpk (by rw [hstore]; decide), fun _ => rfl⟩,
        fun hdone => absurd hdone (hbusy (by decide)), h.phase⟩
    | setReady =>
      obtain ⟨req', pair', htask', hpk, hsk⟩ := h.publishing hnone (by rw [hstore]; decide)
      obtain rfl := hpair htask'
      have hready : s.pq.cryptoStep K coins =
          { s.pq with task := .signaling req, precomp := some pair' } := by
        rw [PqState.cryptoStep, htask]
        exact congrArg (fun precomp => { s.pq with task := .signaling req, precomp := precomp })
          (if_pos rfl)
      refine ⟨?_, h.owned, h.mutex, fun _ => hheld, fun _ hgive => absurd rfl hgive, ?_, ?_⟩
      · dsimp only
        rw [hready]
        exact h.owner
      · intro _ _ pair'' hpair''
        dsimp only at hpair''
        rw [hready] at hpair''
        cases hpair''
        exact ⟨hpk (by rw [hstore]; decide), hsk hstore⟩
      · intro c t hc
        have hnot : t.phase.holdsMutex = false := by
          refine Bool.eq_false_iff.2 fun hholds => ?_
          have hmutex := h.mutex c t hc hholds
          rw [hheld] at hmutex
          cases hmutex
        refine (h.phase c t hc).of_not_holding hnot ?_ (List.Subset.refl _)
        dsimp only
        rw [hready]
    | give => exact h

/-- A changed function, at the place of the change and elsewhere. -/
theorem update_eq_some {f : ℕ → Option TakeCall} {c d : ℕ} {x t : TakeCall}
    (h : Function.update f c (some x) d = some t) : d = c ∧ t = x ∨ d ≠ c ∧ f d = some t := by
  by_cases hdc : d = c
  · subst hdc
    rw [Function.update_self] at h
    exact .inl ⟨rfl, (Option.some.inj h).symm⟩
  · rw [Function.update_of_ne hdc] at h
    exact .inr ⟨hdc, h⟩

/-- A call takes part from its first look at the flag on. -/
theorem Taking.take {s : PairState} (h : Taking s) (c pk sk : ℕ) : Taking (s.take c pk sk) := by
  rw [PairState.take]
  by_cases hfree : s.takes c = none ∧ pk ≠ sk ∧ s.FreeBuffer pk ∧ s.FreeBuffer sk
  · rw [if_pos hfree]
    obtain ⟨hnew, hne, ⟨hpkOwner, hpkFree⟩, hskOwner, hskFree⟩ := hfree
    have hfirst : (if s.pq.precomp.isSome then TakePhase.locking else .leaving false) = .locking ∨
        (if s.pq.precomp.isSome then TakePhase.locking else .leaving false) = .leaving false := by
      split_ifs
      · exact .inl rfl
      · exact .inr rfl
    generalize (if s.pq.precomp.isSome then TakePhase.locking else .leaving false) = first at hfirst
    refine ⟨fun a ha => ?_, fun d t hd hphase => ?_, fun d t hd hholds => ?_, h.storing,
      h.publishing, fun hstore hclear => ?_, fun d t hd => ?_⟩
    · by_cases hask : a = sk
      · exact hask ▸ hskOwner
      · by_cases hapk : a = pk
        · exact hapk ▸ hpkOwner
        · refine h.owner a ?_
          change Function.update (Function.update s.takeOwner pk (some c)) sk (some c) a ≠ none
            at ha
          rwa [Function.update_of_ne hask, Function.update_of_ne hapk] at ha
    · rcases update_eq_some hd with ⟨rfl, rfl⟩ | ⟨-, hd⟩
      · refine ⟨?_, Function.update_self .., hne⟩
        exact (Function.update_of_ne hne _ _).trans (Function.update_self ..)
      · obtain ⟨hpk, hsk, hpksk⟩ := h.owned d t hd hphase
        have hkept : ∀ a, s.takeOwner a = some d →
            Function.update (Function.update s.takeOwner pk (some c)) sk (some c) a = some d := by
          intro a ha
          have hasFree : ∀ b, s.takeOwner b = none → a ≠ b := by
            rintro b hb rfl
            rw [ha] at hb
            cases hb
          rw [Function.update_of_ne (hasFree sk hskFree),
            Function.update_of_ne (hasFree pk hpkFree), ha]
        exact ⟨hkept _ hpk, hkept _ hsk, hpksk⟩
    · rcases update_eq_some hd with ⟨rfl, rfl⟩ | ⟨-, hd⟩
      · rcases hfirst with rfl | rfl <;> cases hholds
      · exact h.mutex d t hd hholds
    · refine h.halves hstore fun d t hd => ?_
      refine hclear d t ?_
      have hdc : d ≠ c := by
        rintro rfl
        rw [hnew] at hd
        cases hd
      exact (Function.update_of_ne hdc _ _).trans hd
    · rcases update_eq_some hd with ⟨rfl, rfl⟩ | ⟨-, hd⟩
      · rcases hfirst with rfl | rfl <;> trivial
      · exact (h.phase d t hd).of_same rfl (fun _ => ⟨rfl, rfl⟩) (List.Subset.refl _)
  · rw [if_neg hfree]
    exact h

/-- One call goes on to the next phase, and the others and the crypto task are left alone. -/
structure Advances (s s' : PairState) (c : ℕ) (t : TakeCall) (phase : TakePhase) : Prop where
  takes : s'.takes = Function.update s.takes c (some { t with phase := phase })
  store : s'.store = s.store
  task : s'.pq.task = s.pq.task
  requests : s'.pq.owner = s.pq.owner
  owner : ∀ a d, s'.takeOwner a = some d → s.takeOwner a = some d
  own : phase ≠ .returned → s'.takeOwner = s.takeOwner
  others : ∀ d ≠ c, ∀ a, s.takeOwner a = some d → s'.takeOwner a = some d
  mutex : phase.holdsMutex = true → s'.mutex = some (.call c)
  othersMutex : ∀ d ≠ c, s.mutex = some (.call d) → s'.mutex = some (.call d)
  storing : s.mutex = some .crypto → s'.mutex = some .crypto
  storingHalves : s.store ≠ none → s'.precompPk = s.precompPk ∧ s'.precompSk = s.precompSk
  halves : s.store = none ∨ s.store = some .give → phase ≠ .clear →
    (∀ d ≠ c, ∀ t', s.takes d = some t' → t'.phase ≠ .clear) → ∀ pair,
      s'.pq.precomp = some pair → s'.precompPk = pair.1 ∧ s'.precompSk = pair.2
  phase : TakeCall.Inv s' c { t with phase := phase }
  othersPhase : ∀ d ≠ c, ∀ t', s.takes d = some t' → t'.Inv s' d

/-- A call that goes on keeps the takes in order. -/
theorem Taking.advance {s s' : PairState} (h : Taking s) {c : ℕ} {t : TakeCall} {phase : TakePhase}
    (htake : s.takes c = some t) (hreturned : t.phase ≠ .returned)
    (hstep : Advances s s' c t phase) : Taking s' := by
  have hother : ∀ {d t'}, s'.takes d = some t' →
      d = c ∧ t' = { t with phase := phase } ∨ d ≠ c ∧ s.takes d = some t' :=
    fun hd => update_eq_some (hstep.takes ▸ hd)
  refine ⟨fun a ha => ?_, fun d t' hd hphase => ?_, fun d t' hd hholds => ?_, fun hne => ?_,
    fun hne hgive => ?_, fun hfree hclear => ?_, fun d t' hd => ?_⟩
  · rw [hstep.requests]
    obtain ⟨d, hd⟩ := Option.ne_none_iff_exists'.mp ha
    exact h.owner a (by rw [hstep.owner a d hd]; nofun)
  · rcases hother hd with ⟨rfl, rfl⟩ | ⟨hdc, hd⟩
    · rw [hstep.own hphase]
      exact h.owned d t htake hreturned
    · obtain ⟨hpk, hsk, hne⟩ := h.owned d t' hd hphase
      exact ⟨hstep.others d hdc _ hpk, hstep.others d hdc _ hsk, hne⟩
  · rcases hother hd with ⟨rfl, rfl⟩ | ⟨hdc, hd⟩
    · exact hstep.mutex hholds
    · exact hstep.othersMutex d hdc (h.mutex d t' hd hholds)
  · rw [hstep.store] at hne
    exact hstep.storing (h.storing hne)
  · rw [hstep.store] at hne hgive
    obtain ⟨hpk, hsk⟩ := hstep.storingHalves hne
    rw [hstep.store, hstep.task, hpk, hsk]
    exact h.publishing hne hgive
  · rw [hstep.store] at hfree
    refine hstep.halves hfree ?_ fun d hdc t' hd => ?_
    · exact hclear c { t with phase := phase } (by rw [hstep.takes, Function.update_self])
    · exact hclear d t' (by rw [hstep.takes, Function.update_of_ne hdc]; exact hd)
  · rcases hother hd with ⟨rfl, rfl⟩ | ⟨hdc, hd⟩
    · exact hstep.phase
    · exact hstep.othersPhase d hdc t' hd

/-- A call with the mutex goes on without giving it, and changes at most its own buffers. -/
theorem Taking.proceed {s s' : PairState} (h : Taking s) {c : ℕ} {t : TakeCall} (phase : TakePhase)
    (htake : s.takes c = some t) (hholds : t.phase.holdsMutex = true)
    (hsame : s' = { s.setPhase c t phase with
      pq := { s.pq with mem := s'.pq.mem }
      precompPk := s'.precompPk
      precompSk := s'.precompSk })
    (hmem : ∀ a, s.takeOwner a ≠ some c → s'.pq.mem a = s.pq.mem a)
    (hhalves : phase ≠ .clear → ∀ pair, s.pq.precomp = some pair →
      s'.precompPk = pair.1 ∧ s'.precompSk = pair.2)
    (hphase : TakeCall.Inv s' c { t with phase := phase }) : Taking s' := by
  have hheld := h.mutex c t htake hholds
  have hreturned : t.phase ≠ .returned := by
    intro hphase
    rw [hphase] at hholds
    cases hholds
  have hothers : ∀ d ≠ c, ∀ t', s.takes d = some t' → t'.Inv s' d := by
    intro d hdc t' hd
    have hprecomp : s'.pq.precomp = s.pq.precomp := by rw [hsame]
    have hconsumed : s'.consumed = s.consumed := by rw [hsame]; rfl
    refine (h.phase d t' hd).of_same hprecomp (fun hphase' => ?_) (hconsumed ▸ List.Subset.refl _)
    obtain ⟨hpk, hsk, -⟩ := h.owned d t' hd hphase'
    have hne : some d ≠ some c := fun heq => hdc (Option.some.inj heq)
    exact ⟨hmem _ (hpk ▸ hne), hmem _ (hsk ▸ hne)⟩
  rw [hsame] at hphase hothers ⊢
  exact h.advance htake hreturned {
    takes := rfl
    store := rfl
    task := rfl
    requests := rfl
    owner := fun _ _ ha => ha
    own := fun _ => rfl
    others := fun _ _ _ ha => ha
    mutex := fun _ => hheld
    othersMutex := fun _ _ hmutex => hmutex
    storing := fun hmutex => hmutex
    storingHalves := fun hne => absurd (h.store_eq_none hheld) hne
    halves := fun _ hclear _ pair hpair => hhalves hclear pair hpair
    phase := hphase
    othersPhase := hothers }

/-- The call with the mutex finds the stored pair, unless it has wiped it. -/
theorem Taking.halves_of_held {s : PairState} (h : Taking s) {c : ℕ} {t : TakeCall}
    (htake : s.takes c = some t) (hholds : t.phase.holdsMutex = true) (hne : t.phase ≠ .clear)
    {pair : KeyPair} (hpair : s.pq.precomp = some pair) :
    s.precompPk = pair.1 ∧ s.precompSk = pair.2 := by
  have hheld := h.mutex c t htake hholds
  refine h.halves (.inl (h.store_eq_none hheld)) (fun d t' hd hclear => ?_) pair hpair
  obtain rfl := h.eq_of_holdsMutex hheld hd (by rw [hclear]; rfl)
  rw [htake] at hd
  cases hd
  exact hne hclear

/-- The stored pair is whole where no call has wiped it. -/
theorem Taking.halves_of_others {s : PairState} (h : Taking s) {c : ℕ} {t : TakeCall}
    (htake : s.takes c = some t) (hne : t.phase ≠ .clear)
    (hstore : s.store = none ∨ s.store = some .give)
    (hothers : ∀ d ≠ c, ∀ t', s.takes d = some t' → t'.phase ≠ .clear) {pair : KeyPair}
    (hpair : s.pq.precomp = some pair) : s.precompPk = pair.1 ∧ s.precompSk = pair.2 := by
  refine h.halves hstore (fun d t' hd => ?_) pair hpair
  by_cases hdc : d = c
  · subst hdc
    rw [htake] at hd
    cases hd
    exact hne
  · exact hothers d hdc t' hd

/-- A call takes the mutex. -/
theorem Taking.lock {s : PairState} (h : Taking s) {c : ℕ} {t : TakeCall}
    (htake : s.takes c = some t) (hphase : t.phase = .locking) (hmutex : s.mutex = none) :
    Taking { s.setPhase c t .locked with mutex := some (.call c) } := by
  have hfree : ∀ {holder}, s.mutex ≠ some holder := by
    intro holder
    rw [hmutex]
    nofun
  exact h.advance htake (by rw [hphase]; nofun) {
    takes := rfl
    store := rfl
    task := rfl
    requests := rfl
    owner := fun _ _ ha => ha
    own := fun _ => rfl
    others := fun _ _ _ ha => ha
    mutex := fun _ => rfl
    othersMutex := fun _ _ hheld => absurd hheld hfree
    storing := fun hheld => absurd hheld hfree
    storingHalves := fun _ => ⟨rfl, rfl⟩
    halves := fun hstore _ hothers _ hpair =>
      h.halves_of_others htake (by rw [hphase]; nofun) hstore hothers hpair
    phase := trivial
    othersPhase := fun d _ t' hd =>
      (h.phase d t' hd).of_same rfl (fun _ => ⟨rfl, rfl⟩) (List.Subset.refl _) }

/-- A call clears the flag: the pair it has copied is consumed. -/
theorem Taking.clear {s : PairState} (h : Taking s) {c : ℕ} {t : TakeCall}
    (htake : s.takes c = some t) (hphase : t.phase = .clear) :
    Taking { s.setPhase c t (.give true) with
      pq := s.pq.getPrecomputed
      consumed := (s.pq.precomp.map fun pair => (c, pair)).toList ++ s.consumed } := by
  have hheld := h.mutex c t htake (by rw [hphase]; rfl)
  have hinv := h.phase c t htake
  rw [TakeCall.Inv, hphase] at hinv
  obtain ⟨pair, hpair, hpk, hsk⟩ := hinv
  have hconsumed : (c, pair) ∈ (s.pq.precomp.map fun pair => (c, pair)).toList ++ s.consumed := by
    rw [hpair]
    exact List.mem_append_left _ (List.mem_singleton.2 rfl)
  exact h.advance htake (by rw [hphase]; nofun) {
    takes := rfl
    store := rfl
    task := rfl
    requests := rfl
    owner := fun _ _ ha => ha
    own := fun _ => rfl
    others := fun _ _ _ ha => ha
    mutex := fun _ => hheld
    othersMutex := fun _ _ hmutex => hmutex
    storing := fun hmutex => hmutex
    storingHalves := fun _ => ⟨rfl, rfl⟩
    halves := nofun
    phase := ⟨pair, hconsumed, hpk, hsk⟩
    othersPhase := fun d hdc t' hd =>
      (h.phase d t' hd).of_not_holding
        (Bool.eq_false_iff.2 fun hholds => hdc (h.eq_of_holdsMutex hheld hd hholds)) rfl
        (List.subset_append_right _ _) }

/-- A call gives the mutex back. -/
theorem Taking.give {s : PairState} (h : Taking s) {c : ℕ} {t : TakeCall} {taken : Bool}
    (htake : s.takes c = some t) (hphase : t.phase = .give taken) :
    Taking { s.setPhase c t (.leaving taken) with mutex := none } := by
  have hholds : t.phase.holdsMutex = true := by rw [hphase]; rfl
  have hheld : ∀ {holder}, s.mutex = some holder → holder = .call c := by
    intro holder hmutex
    rw [h.mutex c t htake hholds] at hmutex
    exact (Option.some.inj hmutex).symm
  have hinv := h.phase c t htake
  rw [TakeCall.Inv, hphase] at hinv
  exact h.advance htake (by rw [hphase]; nofun) {
    takes := rfl
    store := rfl
    task := rfl
    requests := rfl
    owner := fun _ _ ha => ha
    own := fun _ => rfl
    others := fun _ _ _ ha => ha
    mutex := nofun
    othersMutex := fun _ hdc hmutex => absurd (MutexHolder.call.inj (hheld hmutex)) hdc
    storing := fun hmutex => nomatch hheld hmutex
    storingHalves := fun _ => ⟨rfl, rfl⟩
    halves := fun _ _ _ _ hpair => h.halves_of_held htake hholds (by rw [hphase]; nofun) hpair
    phase := by cases taken <;> exact hinv
    othersPhase := fun d _ t' hd =>
      (h.phase d t' hd).of_same rfl (fun _ => ⟨rfl, rfl⟩) (List.Subset.refl _) }

/-- A call returns. -/
theorem Taking.leave {s : PairState} (h : Taking s) {c : ℕ} {t : TakeCall} {taken : Bool}
    (htake : s.takes c = some t) (hphase : t.phase = .leaving taken) :
    Taking (s.leaveTake c t taken) := by
  obtain ⟨hpk, hsk, -⟩ := h.owned c t htake (by rw [hphase]; nofun)
  have howner : ∀ a d, (s.leaveTake c t taken).takeOwner a = some d → s.takeOwner a = some d := by
    intro a d ha
    change Function.update (Function.update s.takeOwner t.pk none) t.sk none a = some d at ha
    by_cases hask : a = t.sk
    · rw [hask, Function.update_self] at ha
      cases ha
    · rw [Function.update_of_ne hask] at ha
      by_cases hapk : a = t.pk
      · rw [hapk, Function.update_self] at ha
        cases ha
      · rwa [Function.update_of_ne hapk] at ha
  have hothers : ∀ d ≠ c, ∀ a, s.takeOwner a = some d →
      (s.leaveTake c t taken).takeOwner a = some d := by
    intro d hdc a ha
    have hne : ∀ b, s.takeOwner b = some c → a ≠ b := by
      rintro b hb rfl
      rw [ha] at hb
      exact hdc (Option.some.inj hb)
    change Function.update (Function.update s.takeOwner t.pk none) t.sk none a = some d
    rw [Function.update_of_ne (hne _ hsk), Function.update_of_ne (hne _ hpk), ha]
  exact h.advance htake (by rw [hphase]; nofun) {
    takes := rfl
    store := rfl
    task := rfl
    requests := rfl
    owner := howner
    own := fun hne => absurd rfl hne
    others := hothers
    mutex := nofun
    othersMutex := fun _ _ hmutex => hmutex
    storing := fun hmutex => hmutex
    storingHalves := fun _ => ⟨rfl, rfl⟩
    halves := fun hstore _ hothers _ hpair =>
      h.halves_of_others htake (by rw [hphase]; nofun) hstore hothers hpair
    phase := trivial
    othersPhase := fun d _ t' hd =>
      (h.phase d t' hd).of_same rfl (fun _ => ⟨rfl, rfl⟩) (List.Subset.refl _) }

/-- Every step of a call keeps the takes in order. -/
theorem Taking.takeStep {s : PairState} (h : Taking s) (c : ℕ) : Taking (s.takeStep c) := by
  rw [PairState.takeStep]
  cases htake : s.takes c with
  | none => exact h
  | some t =>
    have hinv := h.phase c t htake
    rw [TakeCall.Inv] at hinv
    have hwhole : ∀ {phase}, t.phase = phase → phase.holdsMutex = true → phase ≠ .clear →
        ∀ pair, s.pq.precomp = some pair → s.precompPk = pair.1 ∧ s.precompSk = pair.2 := by
      rintro _ rfl hholds hne pair hpair
      exact h.halves_of_held htake hholds hne hpair
    dsimp only
    cases hphase : t.phase with
    | locking =>
      dsimp only
      split_ifs with hmutex
      · exact h.lock htake hphase hmutex
      · exact h
    | locked =>
      have hholds : t.phase.holdsMutex = true := by rw [hphase]; rfl
      have hhalves := hwhole hphase rfl nofun
      dsimp only
      split_ifs with hready
      · exact h.proceed .copyPk htake hholds rfl (fun _ _ => rfl) (fun _ => hhalves) hready
      · exact h.proceed (.give false) htake hholds rfl (fun _ _ => rfl) (fun _ => hhalves) trivial
    | copyPk =>
      have hholds : t.phase.holdsMutex = true := by rw [hphase]; rfl
      have hhalves := hwhole hphase rfl nofun
      obtain ⟨hpk, -, -⟩ := h.owned c t htake (by rw [hphase]; nofun)
      rw [hphase] at hinv
      obtain ⟨pair, hpair⟩ := Option.isSome_iff_exists.1 hinv
      refine h.proceed .copySk htake hholds rfl (fun a ha => Function.update_of_ne ?_ _ _)
        (fun _ => hhalves) ⟨pair, hpair, ?_⟩
      · rintro rfl
        exact ha hpk
      · exact (Function.update_self ..).trans (hhalves pair hpair).1
    | copySk =>
      have hholds : t.phase.holdsMutex = true := by rw [hphase]; rfl
      have hhalves := hwhole hphase rfl nofun
      obtain ⟨-, hsk, hne⟩ := h.owned c t htake (by rw [hphase]; nofun)
      rw [hphase] at hinv
      obtain ⟨pair, hpair, hpk⟩ := hinv
      refine h.proceed .wipe htake hholds rfl (fun a ha => Function.update_of_ne ?_ _ _)
        (fun _ => hhalves) ⟨pair, hpair, ?_, ?_⟩
      · rintro rfl
        exact ha hsk
      · exact (Function.update_of_ne hne _ _).trans hpk
      · exact (Function.update_self ..).trans (hhalves pair hpair).2
    | wipe =>
      rw [hphase] at hinv
      exact h.proceed .clear htake (by rw [hphase]; rfl) rfl (fun _ _ => rfl)
        (fun hne => absurd rfl hne) hinv
    | clear => exact h.clear htake hphase
    | give taken => exact h.give htake hphase
    | leaving taken => exact h.leave htake hphase
    | returned => exact h

/-! ### Each pair once -/

/-- The generated pair that the crypto task is about to store. -/
def CryptoPhase.unstored : CryptoPhase → List KeyPair
  | .publishing _ pair ret => if ret = 0 then [pair] else []
  | .receiving | .received _ | .writing _ _ _ | .signaling _ => []

/-- The background pairs that no call has consumed yet. -/
def PairState.pending (s : PairState) : List KeyPair := s.pq.task.unstored ++ s.pq.precomp.toList

/-- The pairs generated in the background. -/
def PairState.background (s : PairState) : List KeyPair :=
  (s.generated.filter fun e => e.1.isNone).map Prod.snd

/-- The phases after clearing the flag; a call that found no pair ends in one of them too. -/
def TakePhase.done : TakePhase → Bool
  | .give true | .leaving true | .returned => true
  | .locking | .locked | .copyPk | .copySk | .wipe | .clear | .give false | .leaving false => false

/-- Consumed and pending pairs are background pairs, none of them counted twice, and a call
consumes once. -/
structure Stock (s : PairState) : Prop where
  pairs : (s.consumed.map Prod.snd ++ s.pending).Subperm s.background
  distinct : (s.consumed.map Prod.fst).Nodup
  consumed : ∀ c pair, (c, pair) ∈ s.consumed → ∃ t, s.takes c = some t ∧ t.phase.done = true

/-- A call that returned a stored pair had consumed it, and a call returns once. -/
structure Handed (s : PairState) : Prop where
  taken : ∀ c pair, (.taken c, pair) ∈ s.returned →
    (c, pair) ∈ s.consumed ∧ ∃ t, s.takes c = some t ∧ t.phase = .returned
  distinct : (s.returned.map Prod.fst).Nodup

/-- The crypto task may generate a pair, or store one for another. -/
theorem Stock.crypto {s s' : PairState} (h : Stock s) (new : List KeyPair)
    (hpending : (s'.pending).Subperm (new ++ s.pending))
    (hbackground : s'.background = new ++ s.background)
    (hconsumed : s'.consumed = s.consumed) (htakes : s'.takes = s.takes) : Stock s' where
  pairs := by
    rw [hconsumed, hbackground]
    have hfirst : (s.consumed.map Prod.snd ++ s'.pending).Subperm
        (s.consumed.map Prod.snd ++ (new ++ s.pending)) :=
      (List.subperm_append_left _).2 hpending
    have hswap : (s.consumed.map Prod.snd ++ (new ++ s.pending)).Perm
        (new ++ (s.consumed.map Prod.snd ++ s.pending)) := by
      rw [← List.append_assoc, ← List.append_assoc]
      exact List.perm_append_comm.append_right _
    exact (hfirst.trans hswap.subperm).trans ((List.subperm_append_left _).2 h.pairs)
  distinct := by rw [hconsumed]; exact h.distinct
  consumed c pair hmem := by
    rw [hconsumed] at hmem
    rw [htakes]
    exact h.consumed c pair hmem

/-- Where the pairs stay as they are and calls only go on, the stock stays as it is. -/
theorem Stock.takes {s s' : PairState} (h : Stock s) (hpending : s'.pending = s.pending)
    (hgenerated : s'.generated = s.generated) (hconsumed : s'.consumed = s.consumed)
    (htakes : ∀ c t, s.takes c = some t → t.phase.done = true →
      ∃ t', s'.takes c = some t' ∧ t'.phase.done = true) : Stock s' where
  pairs := by
    rw [hconsumed, hpending, PairState.background, hgenerated]
    exact h.pairs
  distinct := by rw [hconsumed]; exact h.distinct
  consumed c pair hmem := by
    rw [hconsumed] at hmem
    obtain ⟨t, ht, hdone⟩ := h.consumed c pair hmem
    exact htakes c t ht hdone

/-- A call that clears the flag consumes the stored pair. -/
theorem Stock.clear {s : PairState} (h : Stock s) {c : ℕ} {t : TakeCall}
    (htake : s.takes c = some t) (hphase : t.phase = .clear) {pair : KeyPair}
    (hpair : s.pq.precomp = some pair) :
    Stock { s.setPhase c t (.give true) with
      pq := s.pq.getPrecomputed
      consumed := (s.pq.precomp.map fun pair => (c, pair)).toList ++ s.consumed } := by
  have hnew : ∀ pair, (c, pair) ∉ s.consumed := by
    intro pair hmem
    obtain ⟨t', ht', hdone⟩ := h.consumed c pair hmem
    rw [htake] at ht'
    cases ht'
    rw [hphase] at hdone
    cases hdone
  have hconsumed : (s.pq.precomp.map fun pair => (c, pair)).toList ++ s.consumed =
      (c, pair) :: s.consumed := by
    rw [hpair]
    rfl
  rw [hconsumed]
  refine ⟨?_, ?_, fun d pair' hmem => ?_⟩
  · refine List.Subperm.trans (List.Perm.subperm ?_) h.pairs
    have hpending : s.pending = s.pq.task.unstored ++ [pair] := by
      rw [PairState.pending, hpair]
      rfl
    rw [hpending, ← List.append_assoc]
    refine List.Perm.trans ?_ List.perm_append_comm
    refine List.Perm.cons _ ?_
    change (s.consumed.map Prod.snd ++ (s.pq.task.unstored ++ [])).Perm _
    rw [List.append_nil]
    exact List.Perm.refl _
  · refine List.nodup_cons.2 ⟨fun hmem => ?_, h.distinct⟩
    obtain ⟨⟨d, pair'⟩, hin, hd⟩ := List.mem_map.1 hmem
    obtain rfl : d = c := hd
    exact hnew pair' hin
  · by_cases hdc : d = c
    · subst hdc
      exact ⟨_, Function.update_self .., rfl⟩
    · rcases List.mem_cons.1 hmem with heq | hold
      · cases heq
        exact absurd rfl hdc
      · obtain ⟨t', ht', hdone⟩ := h.consumed d pair' hold
        exact ⟨t', (Function.update_of_ne hdc _ _).trans ht', hdone⟩

/-- A step of the crypto task that stores nothing keeps the stock. -/
theorem Stock.cryptoStep {s : PairState} (h : Stock s)
    (hstore : ∀ req pair, s.pq.task ≠ .publishing req pair 0) (coins : List UInt8) :
    Stock { s with
      pq := s.pq.cryptoStep K coins
      generated := (s.generatedBy K coins).toList ++ s.generated } := by
  refine h.crypto (((s.generatedBy K coins).toList.filter fun e => e.1.isNone).map Prod.snd) ?_
    (by simp only [PairState.background, List.filter_append, List.map_append]) rfl rfl
  have hkept : ∀ {pending new : List KeyPair}, pending = s.pending →
      pending.Subperm (new ++ s.pending) := by
    rintro _ new rfl
    exact (List.sublist_append_right _ _).subperm
  rw [PairState.generatedBy]
  cases htask : s.pq.task with
  | receiving =>
    refine hkept ?_
    cases hqueue : s.pq.queue <;> simp [PairState.pending, PqState.cryptoStep, htask, hqueue,
      CryptoPhase.unstored]
  | received req =>
    cases hop : req.op with
    | some op =>
      refine hkept ?_
      simp [PairState.pending, PqState.cryptoStep, htask, hop, CryptoPhase.unstored]
    | none =>
      cases hprecomp : s.pq.precomp with
      | some pair =>
        refine hkept ?_
        simp [PairState.pending, PqState.cryptoStep, htask, hop, hprecomp, CryptoPhase.unstored]
      | none =>
        refine List.Perm.subperm (List.Perm.of_eq ?_)
        by_cases hret : (K.keypair coins).2 = 0 <;> simp [PairState.pending, PqState.cryptoStep,
          htask, hop, hprecomp, CryptoPhase.unstored, hret]
  | writing req todo ret =>
    refine hkept ?_
    cases todo <;> simp [PairState.pending, PqState.cryptoStep, PqState.storeResult, htask,
      CryptoPhase.unstored]
  | publishing req pair ret =>
    have hret : ret ≠ 0 := by
      rintro rfl
      exact hstore req pair htask
    refine hkept ?_
    simp [PairState.pending, PqState.cryptoStep, htask, CryptoPhase.unstored, hret]
  | signaling req =>
    refine hkept ?_
    simp [PairState.pending, PqState.cryptoStep, PqState.giveDone, htask, CryptoPhase.unstored]

/-- Storing a generated pair keeps the stock. -/
theorem Stock.storeStep {s : PairState} (h : Stock s) {req : PqRequest} {pair : KeyPair}
    (htask : s.pq.task = .publishing req pair 0) (coins : List UInt8) :
    Stock (s.storeStep K pair coins) := by
  have hsame : ∀ {s' : PairState}, s' = { s with
      precompPk := s'.precompPk, precompSk := s'.precompSk, mutex := s'.mutex, store := s'.store } →
      Stock s' := by
    intro s' hs'
    rw [hs']
    exact h.takes rfl rfl rfl fun c t ht hdone => ⟨t, ht, hdone⟩
  rw [PairState.storeStep]
  cases hstore : s.store with
  | none =>
    dsimp only
    split_ifs
    · exact hsame rfl
    · exact h
  | some phase =>
    cases phase with
    | copyPk => exact hsame rfl
    | copySk => exact hsame rfl
    | setReady =>
      refine h.crypto [] ?_ rfl rfl rfl
      -- the pair takes the place of the one that was stored, if there was one
      have hpending : s.pending = pair :: s.pq.precomp.toList := by
        simp [PairState.pending, htask, CryptoPhase.unstored]
      rw [hpending]
      simp [PairState.pending, PqState.cryptoStep, htask, CryptoPhase.unstored]
    | give => exact h

/-- What a step of a call does besides clearing the flag and returning: it goes on, and writes at
most one of its own buffers. -/
structure GoesOn (s : PairState) (t : TakeCall) (phase : TakePhase) (mem : ℕ → List UInt8) :
    Prop where
  returned : t.phase ≠ .returned
  done : t.phase.done = true → phase.done = true
  mem : mem = s.pq.mem ∨
    ∃ a key, (a = t.pk ∨ a = t.sk) ∧ mem = Function.update s.pq.mem a key

/-- A step of a call of `pq_crypto_get_precomputed`. -/
theorem takeStep_cases (s : PairState) (c : ℕ) :
    s.takeStep c = s ∨ ∃ t, s.takes c = some t ∧
      ((t.phase = .clear ∧ s.takeStep c =
          { s.setPhase c t (.give true) with
            pq := s.pq.getPrecomputed
            consumed := (s.pq.precomp.map fun pair => (c, pair)).toList ++ s.consumed }) ∨
        (∃ taken, t.phase = .leaving taken ∧ s.takeStep c = s.leaveTake c t taken) ∨
        ∃ phase mem precompPk precompSk mutex, GoesOn s t phase mem ∧ s.takeStep c =
          { s.setPhase c t phase with
            pq := { s.pq with mem := mem }
            precompPk := precompPk
            precompSk := precompSk
            mutex := mutex }) := by
  rw [PairState.takeStep]
  cases htake : s.takes c with
  | none => exact .inl rfl
  | some t =>
    dsimp only
    cases hphase : t.phase with
    | locking =>
      dsimp only
      split_ifs
      · exact .inr ⟨t, rfl, .inr (.inr ⟨.locked, s.pq.mem, _, _, _,
          ⟨by rw [hphase]; nofun, by rw [hphase]; nofun, .inl rfl⟩, rfl⟩)⟩
      · exact .inl rfl
    | locked =>
      refine .inr ⟨t, rfl, .inr (.inr ?_)⟩
      dsimp only
      split_ifs
      · exact ⟨.copyPk, s.pq.mem, _, _, _,
          ⟨by rw [hphase]; nofun, by rw [hphase]; nofun, .inl rfl⟩, rfl⟩
      · exact ⟨.give false, s.pq.mem, _, _, _,
          ⟨by rw [hphase]; nofun, by rw [hphase]; nofun, .inl rfl⟩, rfl⟩
    | copyPk =>
      exact .inr ⟨t, rfl, .inr (.inr ⟨.copySk, _, _, _, _,
        ⟨by rw [hphase]; nofun, by rw [hphase]; nofun, .inr ⟨_, _, .inl rfl, rfl⟩⟩, rfl⟩)⟩
    | copySk =>
      exact .inr ⟨t, rfl, .inr (.inr ⟨.wipe, _, _, _, _,
        ⟨by rw [hphase]; nofun, by rw [hphase]; nofun, .inr ⟨_, _, .inr rfl, rfl⟩⟩, rfl⟩)⟩
    | wipe =>
      exact .inr ⟨t, rfl, .inr (.inr ⟨.clear, s.pq.mem, _, _, _,
        ⟨by rw [hphase]; nofun, by rw [hphase]; nofun, .inl rfl⟩, rfl⟩)⟩
    | clear => exact .inr ⟨t, rfl, .inl ⟨hphase, rfl⟩⟩
    | give taken =>
      refine .inr ⟨t, rfl, .inr (.inr ⟨.leaving taken, s.pq.mem, _, _, _,
        ⟨by rw [hphase]; nofun, ?_, .inl rfl⟩, rfl⟩)⟩
      rw [hphase]
      cases taken <;> exact id
    | leaving taken => exact .inr ⟨t, rfl, .inr (.inl ⟨taken, hphase, rfl⟩)⟩
    | returned => exact .inl rfl

/-- A call that goes on keeps what is known of the calls whose phase is past a point. -/
theorem setPhase_takes (past : TakePhase → Prop) {s : PairState} {c d : ℕ} {t t' : TakeCall}
    {phase : TakePhase} (htake : s.takes c = some t) (hnext : past t.phase → past phase)
    (ht : s.takes d = some t') (hpast : past t'.phase) :
    ∃ t'', (s.setPhase c t phase).takes d = some t'' ∧ past t''.phase := by
  by_cases hdc : d = c
  · subst hdc
    rw [htake] at ht
    cases ht
    exact ⟨_, Function.update_self .., hnext hpast⟩
  · exact ⟨t', (Function.update_of_ne hdc _ _).trans ht, hpast⟩

/-- Every step of a call keeps the stock. -/
theorem Stock.takeStep {s : PairState} (h : Stock s) (htaking : Taking s) (c : ℕ) :
    Stock (s.takeStep c) := by
  rcases takeStep_cases s c with hsame | ⟨t, htake, ⟨hphase, hstep⟩ | ⟨taken, hphase, hstep⟩ |
    ⟨phase, mem, _, _, _, hgoes, hstep⟩⟩
  · rwa [hsame]
  · have hinv := htaking.phase c t htake
    rw [TakeCall.Inv, hphase] at hinv
    obtain ⟨pair, hpair, -⟩ := hinv
    rw [hstep]
    exact h.clear htake hphase hpair
  · rw [hstep]
    exact h.takes rfl rfl rfl fun d t' ht' hdone =>
      setPhase_takes (fun phase => phase.done = true) htake (fun _ => rfl) ht' hdone
  · rw [hstep]
    exact h.takes rfl rfl rfl fun d t' ht' hdone =>
      setPhase_takes (fun phase => phase.done = true) htake hgoes.done ht' hdone

/-- A call that starts leaves the others where they are. -/
theorem take_takes (s : PairState) (c pk sk : ℕ) {d : ℕ} {t : TakeCall}
    (ht : s.takes d = some t) : (s.take c pk sk).takes d = some t := by
  rw [PairState.take]
  by_cases hfree : s.takes c = none ∧ pk ≠ sk ∧ s.FreeBuffer pk ∧ s.FreeBuffer sk
  · rw [if_pos hfree]
    refine (Function.update_of_ne ?_ _ _).trans ht
    rintro rfl
    rw [hfree.1] at ht
    cases ht
  · rwa [if_neg hfree]

/-- A call that starts changes no more than which calls there are. -/
theorem take_eq (s : PairState) (c pk sk : ℕ) : ∃ takes takeOwner, s.take c pk sk =
    { s with takes := takes, takeOwner := takeOwner } := by
  rw [PairState.take]
  split
  · exact ⟨_, _, rfl⟩
  · exact ⟨_, _, rfl⟩

/-- A call that starts consumes nothing. -/
theorem Stock.take {s : PairState} (h : Stock s) (c pk sk : ℕ) : Stock (s.take c pk sk) := by
  have htakes : ∀ d t, s.takes d = some t → (s.take c pk sk).takes d = some t :=
    fun d t => take_takes s c pk sk
  obtain ⟨takes, takeOwner, hstep⟩ := take_eq s c pk sk
  rw [hstep] at htakes ⊢
  exact h.takes rfl rfl rfl fun d t ht hdone => ⟨t, htakes d t ht, hdone⟩

/-- Where nothing returns, and calls only go on, what was handed out stays. -/
theorem Handed.takes {s s' : PairState} (h : Handed s) (hreturned : s'.returned = s.returned)
    (hconsumed : s.consumed ⊆ s'.consumed)
    (htakes : ∀ c t, s.takes c = some t → t.phase = .returned →
      ∃ t', s'.takes c = some t' ∧ t'.phase = .returned) : Handed s' where
  taken c pair hmem := by
    rw [hreturned] at hmem
    obtain ⟨hin, t, ht, hphase⟩ := h.taken c pair hmem
    exact ⟨hconsumed hin, htakes c t ht hphase⟩
  distinct := by rw [hreturned]; exact h.distinct

/-- A call returns, with the pair that it has consumed if it has found one. -/
theorem Handed.leave {s : PairState} (h : Handed s) (htaking : Taking s) {c : ℕ} {t : TakeCall}
    {taken : Bool} (htake : s.takes c = some t) (hphase : t.phase = .leaving taken) :
    Handed (s.leaveTake c t taken) := by
  have hreturns : ∀ d t', s.takes d = some t' → t'.phase = .returned →
      ∃ t'', (s.leaveTake c t taken).takes d = some t'' ∧ t''.phase = .returned :=
    fun d t' ht' hreturned =>
      setPhase_takes (· = .returned) htake (fun _ => rfl) ht' hreturned
  cases taken with
  | false => exact h.takes rfl (List.Subset.refl _) hreturns
  | true =>
    have hinv := htaking.phase c t htake
    rw [TakeCall.Inv, hphase] at hinv
    obtain ⟨⟨pk, sk⟩, hconsumed, hpk, hsk⟩ := hinv
    have hentry : (s.leaveTake c t true).returned = (.taken c, (pk, sk)) :: s.returned := by
      change (.taken c, (s.pq.mem t.pk, s.pq.mem t.sk)) :: s.returned = _
      rw [hpk, hsk]
    refine ⟨fun d pair hmem => ?_, ?_⟩
    · rw [hentry] at hmem
      rcases List.mem_cons.1 hmem with heq | hold
      · cases heq
        exact ⟨hconsumed, _, Function.update_self .., rfl⟩
      · obtain ⟨hin, t', ht', hreturned⟩ := h.taken d pair hold
        exact ⟨hin, hreturns d t' ht' hreturned⟩
    · rw [hentry]
      refine List.nodup_cons.2 ⟨fun hmem => ?_, h.distinct⟩
      obtain ⟨⟨ret, pair⟩, hin, hret⟩ := List.mem_map.1 hmem
      obtain rfl : ret = .taken c := hret
      obtain ⟨-, t', ht', hreturned⟩ := h.taken c pair hin
      rw [htake] at ht'
      cases ht'
      rw [hphase] at hreturned
      cases hreturned

/-- Every step of a call keeps what was handed out. -/
theorem Handed.takeStep {s : PairState} (h : Handed s) (htaking : Taking s) (c : ℕ) :
    Handed (s.takeStep c) := by
  rcases takeStep_cases s c with hsame | ⟨t, htake, ⟨hphase, hstep⟩ | ⟨taken, hphase, hstep⟩ |
    ⟨phase, mem, _, _, _, hgoes, hstep⟩⟩
  · rwa [hsame]
  · rw [hstep]
    refine h.takes rfl (List.subset_append_right _ _) fun d t' ht' hreturned =>
      setPhase_takes (· = .returned) htake (fun hclear => ?_) ht' hreturned
    rw [hphase] at hclear
    cases hclear
  · rw [hstep]
    exact h.leave htaking htake hphase
  · rw [hstep]
    exact h.takes rfl (List.Subset.refl _) fun d t' ht' hreturned =>
      setPhase_takes (· = .returned) htake (fun heq => absurd heq hgoes.returned) ht'
        hreturned

/-- A call that starts returns nothing yet. -/
theorem Handed.take {s : PairState} (h : Handed s) (c pk sk : ℕ) : Handed (s.take c pk sk) := by
  have htakes : ∀ d t, s.takes d = some t → (s.take c pk sk).takes d = some t :=
    fun d t => take_takes s c pk sk
  obtain ⟨takes, takeOwner, hstep⟩ := take_eq s c pk sk
  rw [hstep] at htakes ⊢
  exact h.takes rfl (List.Subset.refl _) fun d t ht hreturned => ⟨t, htakes d t ht, hreturned⟩

/-- A `pq_crypto_keygen` that returns had not returned before. -/
theorem Handed.keygen {s : PairState} (h : Handed s) (hledger : Ledger K s) (hinv : Inv K s.pq)
    (c : ℕ) : Handed { s with
      pq := s.pq.semaphoreTake c
      returned := (s.keygenReturn c).toList ++ s.returned } := by
  cases hreturn : s.keygenReturn c with
  | none => exact h.takes rfl (List.Subset.refl _) fun _ t ht hreturned => ⟨t, ht, hreturned⟩
  | some entry =>
    obtain ⟨ret, pair⟩ := entry
    obtain ⟨rfl, -, -⟩ := hledger.keygenReturn hinv hreturn
    refine ⟨fun d pair' hmem => ?_, List.nodup_cons.2 ⟨fun hmem => ?_, h.distinct⟩⟩
    · rcases List.mem_cons.1 hmem with heq | hold
      · cases heq
      · exact h.taken d pair' hold
    · obtain ⟨⟨ret, pair'⟩, hin, hret⟩ := List.mem_map.1 hmem
      obtain rfl : ret = .keygen c := hret
      have hdone := (hledger.returned c pair' hin).1
      rw [PairState.keygenReturn, hdone] at hreturn
      cases hreturn

/-! ### The invariant -/

/-- What holds in every run without a timeout. -/
structure PairInv (K : Sntrup761) (s : PairState) : Prop where
  requests : Inv K s.pq
  ledger : Ledger K s
  taking : Taking s
  stock : Stock s
  handed : Handed s

/-- A step of a caller that asks for an operation. -/
theorem PairInv.request {s : PairState} (h : PairInv K s) {label : PqLabel}
    (hin : s.pq.InTime label) (hlabel : ∀ coins, label ≠ .crypto coins)
    (hget : label ≠ .getPrecomputed)
    (hcall : ∀ c f semCreated, label = .call c f semCreated →
      ∀ a ∈ f.op.buffers, s.takeOwner a = none)
    (hfill : ∀ a value, label = .fill a value → s.takeOwner a = none)
    {returned : List (PairReturn × KeyPair)}
    (hreturned : ∀ c pair, (.keygen c, pair) ∈ returned → (.keygen c, pair) ∈ s.returned ∨
      (s.pq.step K label).calls c = some .returned ∧ (some c, pair) ∈ s.generated)
    (hhanded : Handed { s with pq := s.pq.step K label, returned := returned }) :
    PairInv K { s with pq := s.pq.step K label, returned := returned } := by
  obtain ⟨hleaves, htask⟩ : LeavesTakes s.pq (s.pq.step K label) { a | s.takeOwner a ≠ none } ∧
      (s.pq.step K label).task = s.pq.task :=
    LeavesTakes.step K s.pq hlabel hget
      (fun c f semCreated heq a ha hne => hne (hcall c f semCreated heq a ha))
      fun a value heq hne => hne (hfill a value heq)
  refine ⟨h.requests.step hin, h.ledger.moves (.step K s.pq hlabel) rfl hreturned,
    h.taking.leaves hleaves (fun _ _ => htask) rfl,
    h.stock.takes ?_ rfl rfl fun _ t ht hdone => ⟨t, ht, hdone⟩, hhanded⟩
  rw [PairState.pending, PairState.pending]
  exact congrArg₂ (· ++ ·) (congrArg CryptoPhase.unstored htask)
    (congrArg Option.toList hleaves.precomp)

/-- Storing a pair changes the module's own state only. -/
theorem storeStep_eq (K : Sntrup761) (s : PairState) (pair : KeyPair) (coins : List UInt8) :
    ∃ pq precompPk precompSk mutex store, (pq = s.pq ∨ pq = s.pq.cryptoStep K coins) ∧
      s.storeStep K pair coins = { s with
        pq := pq
        precompPk := precompPk
        precompSk := precompSk
        mutex := mutex
        store := store } := by
  rw [PairState.storeStep]
  cases s.store with
  | none =>
    dsimp only
    split
    · exact ⟨_, _, _, _, _, .inl rfl, rfl⟩
    · exact ⟨_, _, _, _, _, .inl rfl, rfl⟩
  | some phase =>
    cases phase with
    | copyPk | copySk | give => exact ⟨_, _, _, _, _, .inl rfl, rfl⟩
    | setReady => exact ⟨_, _, _, _, _, .inr rfl, rfl⟩

/-- Storing a generated pair executes nothing. -/
theorem Moves.publish {req : PqRequest} {pair : KeyPair} {ret : ℤ}
    (htask : s.task = .publishing req pair ret) (coins : List UInt8) :
    Moves s (s.cryptoStep K coins) := by
  refine .of_calls (cryptoStep_calls K s coins) fun c coins' hexec => ?_
  rw [PqState.cryptoStep, htask] at hexec
  exact hexec

/-- A step of the crypto task that stores a generated pair. -/
theorem PairInv.storeStep {s : PairState} (h : PairInv K s) {req : PqRequest} {pair : KeyPair}
    (htask : s.pq.task = .publishing req pair 0) (coins : List UInt8) :
    PairInv K (s.storeStep K pair coins) := by
  have htaking := h.taking.storeStep (K := K) htask coins
  have hstock := h.stock.storeStep (K := K) htask coins
  obtain ⟨pq, _, _, _, _, hpq, hstep⟩ := storeStep_eq K s pair coins
  rw [hstep] at htaking hstock ⊢
  have hrequests : Inv K pq ∧ Moves s.pq pq := by
    rcases hpq with rfl | rfl
    · exact ⟨h.requests, .refl _⟩
    · exact ⟨h.requests.cryptoStep coins, .publish htask coins⟩
  exact ⟨hrequests.1, h.ledger.moves hrequests.2 rfl fun _ _ hmem => .inl hmem, htaking, hstock,
    h.handed.takes rfl (List.Subset.refl _) fun _ t ht hreturned => ⟨t, ht, hreturned⟩⟩

/-- Every step of the crypto task keeps the invariant. -/
theorem PairInv.cryptoStep {s : PairState} (h : PairInv K s) (coins : List UInt8) :
    PairInv K (s.cryptoStep K coins) := by
  have hreturns : ∀ c t, s.takes c = some t → t.phase = .returned →
      ∃ t', s.takes c = some t' ∧ t'.phase = .returned :=
    fun _ t ht hreturned => ⟨t, ht, hreturned⟩
  rw [PairState.cryptoStep]
  split_ifs with hgive
  · exact ⟨h.requests, h.ledger.moves (.refl _) rfl fun _ _ hmem => .inl hmem,
      h.taking.giveMutex hgive, h.stock.takes rfl rfl rfl fun _ t ht hdone => ⟨t, ht, hdone⟩,
      h.handed.takes rfl (List.Subset.refl _) hreturns⟩
  · split
    · rename_i req pair htask
      exact h.storeStep htask coins
    · rename_i hnot
      have hstore : ∀ req pair, s.pq.task ≠ .publishing req pair 0 := hnot
      refine ⟨h.requests.cryptoStep coins, h.ledger.cryptoStep h.requests coins,
        h.taking.leaves (.cryptoStep h.requests hstore coins _) (fun hne hgive' => ?_) rfl,
        h.stock.cryptoStep hstore coins, h.handed.takes rfl (List.Subset.refl _) hreturns⟩
      obtain ⟨req, pair, htask, -⟩ := h.taking.publishing hne hgive'
      exact absurd htask (hstore req pair)

/-- Every step of a request in time keeps the invariant. -/
theorem PairInv.requestStep {s : PairState} (h : PairInv K s) {label : PqLabel}
    (hin : s.pq.InTime label) : PairInv K (s.requestStep K label) := by
  have hother : (∀ coins, label ≠ .crypto coins) → label ≠ .getPrecomputed →
      (∀ c f semCreated, label = .call c f semCreated → ∀ a ∈ f.op.buffers, s.takeOwner a = none) →
      (∀ a value, label = .fill a value → s.takeOwner a = none) →
      PairInv K { s with pq := s.pq.step K label } := by
    intro hlabel hget hcall hfill
    exact h.request hin hlabel hget hcall hfill (fun _ _ hmem => .inl hmem)
      (h.handed.takes rfl (List.Subset.refl _) fun _ t ht hreturned => ⟨t, ht, hreturned⟩)
  cases label with
  | getPrecomputed => exact h
  | crypto coins => exact h.cryptoStep coins
  | call c f semCreated =>
    rw [PairState.requestStep]
    split_ifs with hfree
    · refine hother nofun nofun (fun c' f' semCreated' heq => ?_) nofun
      cases heq
      exact hfree
    · exact h
  | fill a value =>
    rw [PairState.requestStep]
    split_ifs with hfree
    · refine hother nofun nofun nofun fun b value' heq => ?_
      cases heq
      exact hfree
    · exact h
  | semaphoreTake c =>
    refine h.request hin nofun nofun nofun nofun (fun d pair hmem => ?_)
      (h.handed.keygen h.ledger h.requests c)
    rcases List.mem_append.1 hmem with hnew | hold
    · obtain ⟨heq, hgenerated, hcalls⟩ :=
        h.ledger.keygenReturn h.requests (Option.mem_toList.1 hnew)
      cases heq
      exact .inr ⟨hcalls, hgenerated⟩
    · exact .inl hold
  | init ok => exact hother nofun nofun nofun nofun
  | queueSend c => exact hother nofun nofun nofun nofun
  | queueFull c => exact hother nofun nofun nofun nofun
  | waitTimeout c => exact hother nofun nofun nofun nofun
  | precompute => exact hother nofun nofun nofun nofun

/-- A call of `pq_crypto_get_precomputed` that starts keeps the invariant. -/
theorem PairInv.take {s : PairState} (h : PairInv K s) (c pk sk : ℕ) :
    PairInv K (s.take c pk sk) := by
  have htaking := h.taking.take c pk sk
  have hstock := h.stock.take c pk sk
  have hhanded := h.handed.take c pk sk
  obtain ⟨takes, takeOwner, hstep⟩ := take_eq s c pk sk
  rw [hstep] at htaking hstock hhanded ⊢
  exact ⟨h.requests, h.ledger.moves (.refl _) rfl fun _ _ hmem => .inl hmem, htaking, hstock,
    hhanded⟩

/-- Every step of such a call keeps the invariant. -/
theorem PairInv.takeStep {s : PairState} (h : PairInv K s) (c : ℕ) :
    PairInv K (s.takeStep c) := by
  have htaking := h.taking.takeStep c
  have hstock := h.stock.takeStep h.taking c
  have hhanded := h.handed.takeStep h.taking c
  rcases takeStep_cases s c with hsame | ⟨t, htake, ⟨-, hstep⟩ | ⟨taken, -, hstep⟩ |
    ⟨phase, mem, _, _, _, hgoes, hstep⟩⟩
  · rwa [hsame]
  · have hrequests : Inv K (s.pq.step K .getPrecomputed) := h.requests.step trivial
    rw [hstep] at htaking hstock hhanded ⊢
    exact ⟨hrequests, h.ledger.moves (.of_calls rfl fun _ _ hexec => hexec) rfl
      fun _ _ hmem => .inl hmem, htaking, hstock, hhanded⟩
  · rw [hstep] at htaking hstock hhanded ⊢
    refine ⟨h.requests, h.ledger.moves (.refl _) rfl fun d pair hmem => .inl ?_, htaking, hstock,
      hhanded⟩
    cases taken with
    | false => exact hmem
    | true => exact (List.mem_cons.1 hmem).resolve_left nofun
  · have hrequests : Inv K { s.pq with mem := mem } := by
      rcases hgoes.mem with rfl | ⟨a, key, ha, rfl⟩
      · exact h.requests
      · obtain ⟨hpk, hsk, -⟩ := h.taking.owned c t htake hgoes.returned
        have howned : s.takeOwner a = some c := by
          rcases ha with rfl | rfl
          · exact hpk
          · exact hsk
        exact h.requests.copyOut (h.taking.owner a (by rw [howned]; nofun)) key
    rw [hstep] at htaking hstock hhanded ⊢
    exact ⟨hrequests, h.ledger.moves (.of_calls rfl fun _ _ hexec => hexec) rfl
      fun _ _ hmem => .inl hmem, htaking, hstock, hhanded⟩

/-- Every step in time keeps the invariant. -/
theorem PairInv.step {s : PairState} (h : PairInv K s) {label : PairLabel} (hin : s.InTime label) :
    PairInv K (s.step K label) := by
  cases label with
  | request label => exact h.requestStep hin
  | take c pk sk => exact h.take c pk sk
  | takeStep c => exact h.takeStep c

/-- The device at start-up. -/
theorem PairInv.boot (K : Sntrup761) (mem : ℕ → List UInt8) : PairInv K (.boot mem) where
  requests := .boot K mem
  ledger := ⟨nofun, nofun, nofun⟩
  taking := ⟨fun _ h => absurd rfl h, nofun, nofun, fun h => absurd rfl h, fun h => absurd rfl h,
    nofun, nofun⟩
  stock := ⟨List.Subperm.refl _, List.nodup_nil, nofun⟩
  handed := ⟨nofun, List.nodup_nil⟩

/-! ### What is returned -/

/-- The pairs that calls of `pq_crypto_keygen` returned. -/
def PairReturn.onDemand : PairReturn × KeyPair → Option (Option ℕ × KeyPair)
  | (.keygen c, pair) => some (some c, pair)
  | (.taken _, _) => none

/-- The stored pairs that calls returned. -/
def PairReturn.stored : PairReturn × KeyPair → Option (ℕ × KeyPair)
  | (.keygen _, _) => none
  | (.taken c, pair) => some (c, pair)

/-- Each returned pair is one or the other. -/
theorem returned_perm (returned : List (PairReturn × KeyPair)) :
    (returned.map Prod.snd).Perm ((returned.filterMap PairReturn.onDemand).map Prod.snd ++
      (returned.filterMap PairReturn.stored).map Prod.snd) := by
  induction returned with
  | nil => exact .refl _
  | cons entry returned ih =>
    obtain ⟨ret, pair⟩ := entry
    cases ret with
    | keygen c => exact ih.cons pair
    | taken c => exact (ih.cons pair).trans List.perm_middle.symm

/-- A list without duplicates whose entries are all in another takes from it. -/
theorem subperm_map_snd {α : Type} {entries pool : List (α × KeyPair)} (hnodup : entries.Nodup)
    (hsubset : entries ⊆ pool) : (entries.map Prod.snd).Subperm (pool.map Prod.snd) := by
  obtain ⟨kept, hperm, hsublist⟩ := List.subperm_of_subset hnodup hsubset
  exact ⟨kept.map Prod.snd, hperm.map _, hsublist.map _⟩

/-- On-demand pairs were generated for the call that returned them, and stored ones in the
background, so that none is both. -/
theorem PairInv.sound {s : PairState} (h : PairInv K s) : s.Sound := by
  have hnodup : s.returned.Nodup := h.handed.distinct.of_map
  have honDemand : ((s.returned.filterMap PairReturn.onDemand).map Prod.snd).Subperm
      ((s.generated.filter fun e => !e.1.isNone).map Prod.snd) := by
    refine subperm_map_snd (hnodup.filterMap ?_) ?_
    · rintro ⟨ret, pair⟩ ⟨ret', pair'⟩ entry hentry hentry'
      cases ret <;> cases ret' <;> cases hentry <;> cases hentry'
      rfl
    · intro entry hentry
      obtain ⟨⟨ret, pair⟩, hin, hret⟩ := List.mem_filterMap.1 hentry
      cases ret with
      | keygen c =>
        cases hret
        exact List.mem_filter.2 ⟨(h.ledger.returned c pair hin).2, rfl⟩
      | taken c => cases hret
  have hstored : ((s.returned.filterMap PairReturn.stored).map Prod.snd).Subperm s.background := by
    have hconsumed : s.returned.filterMap PairReturn.stored ⊆ s.consumed := by
      intro entry hentry
      obtain ⟨⟨ret, pair⟩, hin, hret⟩ := List.mem_filterMap.1 hentry
      cases ret with
      | keygen c => cases hret
      | taken c =>
        cases hret
        exact (h.handed.taken c pair hin).1
    refine (subperm_map_snd (hnodup.filterMap ?_) hconsumed).trans
      ((List.sublist_append_left _ _).subperm.trans h.stock.pairs)
    rintro ⟨ret, pair⟩ ⟨ret', pair'⟩ entry hentry hentry'
    cases ret <;> cases ret' <;> cases hentry <;> cases hentry'
    rfl
  have hgenerated : ((s.generated.filter fun e => !e.1.isNone).map Prod.snd ++ s.background).Perm
      (s.generated.map Prod.snd) := by
    rw [PairState.background, ← List.map_append]
    exact (List.perm_append_comm.trans
      (List.filter_append_perm (fun e => e.1.isNone) s.generated)).map _
  exact ((returned_perm s.returned).subperm.trans (honDemand.append hstored)).trans
    hgenerated.subperm

/-- Each pair that a call returns was generated as a pair, and no generated pair is returned twice,
in every run in which no call stops waiting before its semaphore is given. -/
theorem precomputed_pairs_sound (K : Sntrup761) (mem : ℕ → List UInt8) (labels : List PairLabel)
    (hintime : StepsMeet (PairState.step K) PairState.InTime (.boot mem) labels) :
    (runFrom (PairState.step K) (.boot mem) labels).Sound := by
  have hinv : PairInv K (runFrom (PairState.step K) (.boot mem) labels) :=
    hintime.invariant (fun _ _ h hin => h.step hin) (.boot K mem)
  exact hinv.sound

/-- A pair is made in the background and taken, and the next one is made on demand. -/
def pairService : List PairLabel :=
  [.request (.init true), .request .precompute] ++ List.replicate 8 (.request (.crypto [7])) ++
    [.take 0 0 1] ++ List.replicate 8 (.takeStep 0) ++
    [.request (.call 0 sampleFrame true), .request (.queueSend 0)] ++
    List.replicate 6 (.request (.crypto [8])) ++ [.request (.semaphoreTake 0)]

/-- Two pairs that are returned. -/
theorem precomputed_pairs_sound_sample :
    (runFrom (PairState.step sampleKem) (.boot fun _ => []) pairService).returned =
        [(.keygen 0, ([8], [8])), (.taken 0, ([7], [7]))] ∧
      (runFrom (PairState.step sampleKem) (.boot fun _ => []) pairService).Sound :=
  ⟨by decide, precomputed_pairs_sound sampleKem (fun _ => []) pairService (by decide)⟩

/-- A background pair is made and stored, and then a request for keys whose call has run out of time
is worked off while another call with the same buffers takes the background pair. -/
def lateKeygen : List PairLabel :=
  [.request (.init true), .request .precompute, .request (.crypto []), .take 0 0 1, .takeStep 0,
    .request (.call 0 sampleFrame true), .request (.queueSend 0), .request (.crypto [7]),
    .request (.waitTimeout 0)] ++ List.replicate 7 (.request (.crypto [])) ++
  [.take 1 0 1] ++ List.replicate 4 (.takeStep 1) ++
  [.request (.crypto [9]), .request (.crypto [])] ++ List.replicate 4 (.takeStep 1)

/-- After a timeout a call can return the public key of one pair and the secret key of another. -/
theorem precomputed_pairs_mixed :
    ¬ ∀ (K : Sntrup761) (mem : ℕ → List UInt8) (labels : List PairLabel),
      (runFrom (PairState.step K) (.boot mem) labels).Sound := by
  intro h
  have hreturned : (runFrom (PairState.step sampleKem) (.boot fun _ => []) lateKeygen).returned =
      [(.taken 1, ([9], [7]))] := by
    decide
  have hgenerated : (runFrom (PairState.step sampleKem) (.boot fun _ => []) lateKeygen).generated =
      [(some 0, ([9], [9])), (none, ([7], [7]))] := by
    decide
  have hrun := h sampleKem (fun _ => []) lateKeygen
  rw [PairState.Sound, hreturned, hgenerated] at hrun
  have hmixed : (([9], [7]) : KeyPair) ∈ [([9], [9]), ([7], [7])] :=
    hrun.subset List.mem_cons_self
  revert hmixed
  decide

end SimpleGo.PqCrypto
