import SimpleGo.Lib.Runs
import Mathlib.Data.List.Nodup
import Mathlib.Data.List.Pairwise
import Mathlib.Data.Int.Notation
import Mathlib.Logic.Function.Basic

/-!
# Requests to the post-quantum crypto task

`pq_crypto_task.c`: callers put requests with pointers to their own memory in a queue, and one
task works them off. A caller waits for a semaphore of its own and returns, with the result or
because its time is over; both times it deletes the semaphore.

The callers, the crypto task and the expiry of waiting times interleave between the accesses to
what they share. Memory is a map from buffers to contents, and from the addresses of the
`result` variables to their values; a semaphore handle and the address of a `result` variable
can be used again once the call that had them has returned.
-/

namespace SimpleGo.PqCrypto

open Lib

/-! ### Operations -/

/-- What `submit_request` returns. -/
inductive PqErr where
  | ok
  | fail
  | noMem
  | invalidState
  | timeout
  deriving DecidableEq

/-- The functions of `sntrup761.h` for given random coins: the output buffers in the order of the
arguments, and the return value. -/
structure Sntrup761 where
  /-- `sntrup761_keypair`. -/
  keypair : (coins : List UInt8) → (List UInt8 × List UInt8) × ℤ
  /-- `sntrup761_enc`. -/
  enc : (pk coins : List UInt8) → (List UInt8 × List UInt8) × ℤ
  /-- `sntrup761_dec`. -/
  dec : (ct sk : List UInt8) → List UInt8 × ℤ

/-- The operation of a blocking request, with the pointers to the caller's buffers. -/
inductive PqOp where
  | keygen (pk sk : ℕ)
  | enc (ct ss pk : ℕ)
  | dec (ss ct sk : ℕ)
  deriving DecidableEq

/-- What an operation finds in its input buffers. -/
inductive PqInput where
  | keygen
  | enc (pk : List UInt8)
  | dec (ct sk : List UInt8)
  deriving DecidableEq

/-- The output buffers. -/
def PqOp.outputs : PqOp → List ℕ
  | .keygen pk sk => [pk, sk]
  | .enc ct ss _ => [ct, ss]
  | .dec ss _ _ => [ss]

/-- The input buffers. -/
def PqOp.inputs : PqOp → List ℕ
  | .keygen _ _ => []
  | .enc _ _ pk => [pk]
  | .dec _ ct sk => [ct, sk]

/-- All buffers of a request. -/
def PqOp.buffers (op : PqOp) : List ℕ := op.outputs ++ op.inputs

/-- The operation reads its input buffers. -/
def PqOp.input (mem : ℕ → List UInt8) : PqOp → PqInput
  | .keygen _ _ => .keygen
  | .enc _ _ pk => .enc (mem pk)
  | .dec _ ct sk => .dec (mem ct) (mem sk)

/-- The contents of the output buffers after the operation, and its return value. -/
def PqInput.run (K : Sntrup761) (coins : List UInt8) : PqInput → List (List UInt8) × ℤ
  | .keygen => ([(K.keypair coins).1.1, (K.keypair coins).1.2], (K.keypair coins).2)
  | .enc pk => ([(K.enc pk coins).1.1, (K.enc pk coins).1.2], (K.enc pk coins).2)
  | .dec ct sk => ([(K.dec ct sk).1], (K.dec ct sk).2)

/-! ### State -/

/-- `pq_request_t`: a background request has no caller. -/
structure PqRequest where
  /-- `op` with its buffers; `none` is `PQ_OP_PRECOMPUTE`. -/
  op : Option PqOp
  resultPtr : Option ℕ
  doneSem : Option ℕ
  /-- The call that made the request. -/
  call : Option ℕ
  deriving DecidableEq

/-- The request of `pq_crypto_precompute_keypair`. -/
def precomputeRequest : PqRequest := ⟨none, none, none, none⟩

/-- Where the crypto task is. -/
inductive CryptoPhase where
  /-- In `xQueueReceive`. -/
  | receiving
  /-- With a request it has taken. -/
  | received (req : PqRequest)
  /-- In a KEM function, or before it stores the return value. -/
  | writing (req : PqRequest) (todo : List (ℕ × List UInt8)) (ret : ℤ)
  /-- In `handle_precompute`, after the key pair is made. -/
  | publishing (req : PqRequest) (pair : List UInt8 × List UInt8) (ret : ℤ)
  /-- Before it signals completion. -/
  | signaling (req : PqRequest)
  deriving DecidableEq

/-- The stack frame of `submit_request`. -/
structure SubmitFrame where
  op : PqOp
  timeoutMs : ℕ
  /-- The address of `result`. -/
  result : ℕ
  /-- The handle `done`. -/
  done : ℕ
  deriving DecidableEq

/-- The request of a call. -/
def SubmitFrame.request (f : SubmitFrame) (c : ℕ) : PqRequest :=
  ⟨some f.op, some f.result, some f.done, some c⟩

/-- Where a call of `submit_request` is. -/
inductive PqCall where
  /-- In `xQueueSend`. -/
  | sending (f : SubmitFrame)
  /-- In `xSemaphoreTake`. -/
  | waiting (f : SubmitFrame)
  | returned
  deriving DecidableEq

/-- A binary semaphore, with the call that created it. -/
structure DoneSem where
  given : Bool
  call : ℕ
  deriving DecidableEq

/-- What happens to a call. -/
inductive PqEvent where
  /-- The call is made, with these inputs. -/
  | submitted (c : ℕ) (input : PqInput)
  /-- The crypto task runs the operation of the call's request. -/
  | executed (c : ℕ) (coins : List UInt8)
  /-- The crypto task writes to an output buffer of the request. -/
  | wrote (c : ℕ) (buffer : ℕ)
  /-- The crypto task writes the result of the request. -/
  | stored (c : ℕ)
  /-- The crypto task gives the completion semaphore of the request. -/
  | gave (c : ℕ)
  /-- The call returns, and the caller finds these contents in its output buffers. -/
  | returned (c : ℕ) (code : PqErr) (contents : List (List UInt8))
  deriving DecidableEq

/-- `PQ_CRYPTO_QUEUE_DEPTH`. -/
def queueDepth : ℕ := 4

/-- The module's state, the memory of the callers and what has happened. -/
structure PqState where
  /-- `s_crypto_task` and `s_request_queue` exist. -/
  initialized : Bool
  /-- `s_request_queue`. -/
  queue : List PqRequest
  task : CryptoPhase
  /-- `s_precomp_pk` and `s_precomp_sk` while `s_precomp_ready`. -/
  precomp : Option (List UInt8 × List UInt8)
  calls : ℕ → Option PqCall
  mem : ℕ → List UInt8
  /-- The values of the `result` variables. -/
  results : ℕ → ℤ
  sems : ℕ → Option DoneSem
  /-- The call in progress that a buffer was given to. -/
  owner : ℕ → Option ℕ
  /-- The call in progress whose `result` variable an address is. -/
  frames : ℕ → Option ℕ
  /-- The latest event comes first. -/
  log : List PqEvent

/-- The device before `pq_crypto_task_init`. -/
def PqState.boot (mem : ℕ → List UInt8) : PqState where
  initialized := false
  queue := []
  task := .receiving
  precomp := none
  calls := fun _ => none
  mem := mem
  results := fun _ => 0
  sems := fun _ => none
  owner := fun _ => none
  frames := fun _ => none
  log := []

/-- The request the crypto task works on. -/
def CryptoPhase.request : CryptoPhase → List PqRequest
  | .receiving => []
  | .received req | .writing req _ _ | .publishing req _ _ | .signaling req => [req]

namespace PqState

variable (K : Sntrup761) (s : PqState)

/-- The requests the crypto task has not finished. -/
def outstanding : List PqRequest := s.task.request ++ s.queue

/-! ### Callers -/

/-- A call returns. -/
def leave (c : ℕ) (op : PqOp) (code : PqErr) : PqState :=
  { s with
    calls := Function.update s.calls c (some .returned)
    log := .returned c code (op.outputs.map s.mem) :: s.log }

/-- A call with a semaphore deletes it and returns; its memory is the caller's again. -/
def finish (c : ℕ) (f : SubmitFrame) (code : PqErr) : PqState :=
  { s.leave c f.op code with
    sems := Function.update s.sems f.done none
    owner := fun a => if a ∈ f.op.buffers then none else s.owner a
    frames := Function.update s.frames f.result none }

/-- The handle is free, the address is in no frame, and no call in progress has the buffers: the
caller owns the memory it passes. -/
def Free (f : SubmitFrame) : Prop :=
  s.sems f.done = none ∧ s.frames f.result = none ∧ f.op.buffers.Nodup ∧
    ∀ a ∈ f.op.buffers, s.owner a = none

instance (f : SubmitFrame) : Decidable (s.Free f) :=
  inferInstanceAs (Decidable (_ ∧ _ ∧ _ ∧ ∀ a ∈ f.op.buffers, _))

/-- `pq_crypto_keygen`, `pq_crypto_enc` and `pq_crypto_dec` until `xQueueSend`. Where no semaphore
can be created, `semCreated` is false. -/
def submitRequest (c : ℕ) (f : SubmitFrame) (semCreated : Bool) : PqState :=
  if s.calls c ≠ none then s
  else if s.initialized = false then s.leave c f.op .invalidState
  else if semCreated = false then s.leave c f.op .noMem
  else if s.Free f then
    { s with
      calls := Function.update s.calls c (some (.sending f))
      results := Function.update s.results f.result (-1)
      sems := Function.update s.sems f.done (some ⟨false, c⟩)
      owner := fun a => if a ∈ f.op.buffers then some c else s.owner a
      frames := Function.update s.frames f.result (some c)
      log := .submitted c (f.op.input s.mem) :: s.log }
  else s

/-- `xQueueSend` has room for the request. -/
def queueSend (c : ℕ) : PqState :=
  match s.calls c with
  | some (.sending f) =>
    if s.queue.length < queueDepth then
      { s with
        calls := Function.update s.calls c (some (.waiting f))
        queue := s.queue ++ [f.request c] }
    else s
  | _ => s

/-- The queue stays full for 100 ms. -/
def queueFull (c : ℕ) : PqState :=
  match s.calls c with
  | some (.sending f) => if s.queue.length < queueDepth then s else s.finish c f .timeout
  | _ => s

/-- `xSemaphoreTake` succeeds. -/
def semaphoreTake (c : ℕ) : PqState :=
  match s.calls c with
  | some (.waiting f) =>
    if (s.sems f.done).any DoneSem.given then
      s.finish c f (if s.results f.result = 0 then .ok else .fail)
    else s
  | _ => s

/-- A call's waiting time can be over: its semaphore was not given, and it does not wait for
ever. -/
def TimesOut (c : ℕ) : Prop :=
  match s.calls c with
  | some (.waiting f) => f.timeoutMs ≠ 0 ∧ (s.sems f.done).any DoneSem.given = false
  | _ => False

instance (c : ℕ) : Decidable (s.TimesOut c) := by
  unfold TimesOut
  split <;> infer_instance

/-- `xSemaphoreTake` runs out of time. -/
def waitTimeout (c : ℕ) : PqState :=
  match s.calls c with
  | some (.waiting f) => if s.TimesOut c then s.finish c f .timeout else s
  | _ => s

/-- `pq_crypto_precompute_keypair`. -/
def precomputeKeypair : PqState :=
  if s.precomp.isSome ∨ s.initialized = false then s
  else if s.queue.length < queueDepth then { s with queue := s.queue ++ [precomputeRequest] }
  else s

/-- `pq_crypto_get_precomputed`: the pair is handed out and wiped. -/
def getPrecomputed : PqState := { s with precomp := none }

/-- A caller writes to memory of its own, which no call in progress was given. -/
def fillBuffer (a : ℕ) (value : List UInt8) : PqState :=
  if s.owner a = none then { s with mem := Function.update s.mem a value } else s

/-! ### The crypto task -/

/-- Note what the crypto task does for a request. -/
def note (req : PqRequest) (event : ℕ → PqEvent) : List PqEvent :=
  match req.call with
  | none => s.log
  | some c => event c :: s.log

/-- `*req->result_ptr = ret`. -/
def storeResult (req : PqRequest) (ret : ℤ) : PqState :=
  { s with
    task := .signaling req
    results := match req.resultPtr with
      | none => s.results
      | some p => Function.update s.results p ret
    log := s.note req .stored }

/-- `xSemaphoreGive(req.done_sem)`. What it does to a deleted semaphore is not modelled beyond the
event. -/
def giveDone (req : PqRequest) : PqState :=
  { s with
    task := .receiving
    sems := match req.doneSem with
      | none => s.sems
      | some h => Function.update s.sems h ((s.sems h).map fun sem => { sem with given := true })
    log := s.note req .gave }

/-- One step of `crypto_task`. -/
def cryptoStep (coins : List UInt8) : PqState :=
  match s.task with
  | .receiving =>
    match s.queue with
    | [] => s
    | req :: rest => { s with queue := rest, task := .received req }
  | .received req =>
    match req.op with
    | none =>
      if s.precomp.isSome then { s with task := .signaling req }
      else { s with task := .publishing req (K.keypair coins).1 (K.keypair coins).2 }
    | some op =>
      { s with
        task := .writing req (op.outputs.zip ((op.input s.mem).run K coins).1)
          ((op.input s.mem).run K coins).2
        log := s.note req fun c => .executed c coins }
  | .writing req ((a, value) :: todo) ret =>
    { s with
      task := .writing req todo ret
      mem := Function.update s.mem a value
      log := s.note req fun c => .wrote c a }
  | .writing req [] ret => s.storeResult req ret
  | .publishing req pair ret =>
    { s with task := .signaling req, precomp := if ret = 0 then some pair else s.precomp }
  | .signaling req => s.giveDone req

end PqState

/-! ### Runs -/

/-- A step of a caller or of the crypto task. -/
inductive PqLabel where
  | init (ok : Bool)
  | call (c : ℕ) (f : SubmitFrame) (semCreated : Bool)
  | queueSend (c : ℕ)
  | queueFull (c : ℕ)
  | semaphoreTake (c : ℕ)
  | waitTimeout (c : ℕ)
  | crypto (coins : List UInt8)
  | precompute
  | getPrecomputed
  | fill (a : ℕ) (value : List UInt8)

namespace PqState

/-- One step. -/
def step (K : Sntrup761) (s : PqState) : PqLabel → PqState
  | .init ok => { s with initialized := s.initialized || ok }
  | .call c f semCreated => s.submitRequest c f semCreated
  | .queueSend c => s.queueSend c
  | .queueFull c => s.queueFull c
  | .semaphoreTake c => s.semaphoreTake c
  | .waitTimeout c => s.waitTimeout c
  | .crypto coins => s.cryptoStep K coins
  | .precompute => s.precomputeKeypair
  | .getPrecomputed => s.getPrecomputed
  | .fill a value => s.fillBuffer a value

end PqState

/-- The crypto task writes to memory of a call, or gives its semaphore. -/
def PqEvent.touches (c : ℕ) : PqEvent → Bool
  | .wrote d _ | .stored d | .gave d => c == d
  | _ => false

/-- A call has returned. -/
def PqEvent.isReturn (c : ℕ) : PqEvent → Bool
  | .returned d _ _ => c == d
  | _ => false

/-- The crypto task leaves the calls alone that have returned: no event that touches a call is
later than its return. -/
def Untouched (log : List PqEvent) : Prop :=
  log.Pairwise fun later earlier => ∀ c, earlier.isReturn c = true → later.touches c = false

/-- A call that returns success finds in its buffers what the execution of its own request has
computed from its inputs. -/
def OwnOutputs (K : Sntrup761) (log : List PqEvent) : Prop :=
  ∀ before c contents, .returned c .ok contents :: before <:+ log →
    ∃ input coins, .submitted c input ∈ before ∧ .executed c coins ∈ before ∧
      input.run K coins = (contents, 0)

/-! ### The invariant -/

variable {K : Sntrup761} {s s' : PqState} {c d : ℕ} {f g : SubmitFrame}

/-- A call has its semaphore, its `result` variable, its buffers and its inputs. -/
structure HoldsFrame (s : PqState) (c : ℕ) (f : SubmitFrame) (given : Bool) : Prop where
  sem : s.sems f.done = some ⟨given, c⟩
  result : s.frames f.result = some c
  nodup : f.op.buffers.Nodup
  owned : ∀ a ∈ f.op.buffers, s.owner a = some c
  input : .submitted c (f.op.input s.mem) ∈ s.log

/-- The crypto task has written the outputs and the result of a call. -/
def Completed (K : Sntrup761) (s : PqState) (c : ℕ) (f : SubmitFrame) : Prop :=
  ∃ coins, .executed c coins ∈ s.log ∧
    (f.op.input s.mem).run K coins = (f.op.outputs.map s.mem, s.results f.result)

/-- What the crypto task has done for the call it works for. -/
def CryptoPhase.Inv (K : Sntrup761) (s : PqState) : CryptoPhase → Prop
  | .receiving | .received _ => True
  | .publishing req _ _ => req = precomputeRequest
  | .writing req todo ret => req.op.isSome = true ∧ ∀ c (f : SubmitFrame), req = f.request c →
      ∃ coins outs, .executed c coins ∈ s.log ∧ (f.op.input s.mem).run K coins = (outs, ret) ∧
        (∀ w ∈ todo, w ∈ f.op.outputs.zip outs) ∧
          ∀ w ∈ f.op.outputs.zip outs, w ∈ todo ∨ s.mem w.1 = w.2
  | .signaling req => ∀ c (f : SubmitFrame), req = f.request c → Completed K s c f

/-- The invariant: while no waiting time runs out, the calls in progress are those that the
outstanding requests belong to, those still sending and those whose semaphore has been given. -/
structure Inv (K : Sntrup761) (s : PqState) : Prop where
  sending : ∀ c f, s.calls c = some (.sending f) → HoldsFrame s c f false
  waiting : ∀ c f, s.calls c = some (.waiting f) →
    (HoldsFrame s c f false ∧ f.request c ∈ s.outstanding) ∨
      (HoldsFrame s c f true ∧ Completed K s c f ∧ f.request c ∉ s.outstanding)
  outstanding : ∀ req ∈ s.outstanding,
    req = precomputeRequest ∨ ∃ c f, s.calls c = some (.waiting f) ∧ req = f.request c
  distinct : (s.outstanding.filterMap PqRequest.call).Nodup
  task : s.task.Inv K s
  returned : ∀ e ∈ s.log, ∀ c, e.isReturn c = true → s.calls c = some .returned
  untouched : Untouched s.log
  own : OwnOutputs K s.log

/-! ### What a step leaves alone -/

/-- The inputs are read from the input buffers only. -/
theorem PqOp.input_congr {mem mem' : ℕ → List UInt8} {op : PqOp}
    (h : ∀ a ∈ op.inputs, mem' a = mem a) : op.input mem' = op.input mem := by
  cases op <;> simp_all [PqOp.input, PqOp.inputs]

/-- An operation fills its output buffers. -/
theorem PqOp.run_length (K : Sntrup761) (coins : List UInt8) (mem : ℕ → List UInt8) (op : PqOp) :
    ((op.input mem).run K coins).1.length = op.outputs.length := by
  cases op <;> rfl

/-- Output buffers are buffers. -/
theorem PqOp.mem_buffers_of_outputs {op : PqOp} {a : ℕ} (h : a ∈ op.outputs) : a ∈ op.buffers :=
  List.mem_append_left _ h

/-- So are input buffers. -/
theorem PqOp.mem_buffers_of_inputs {op : PqOp} {a : ℕ} (h : a ∈ op.inputs) : a ∈ op.buffers :=
  List.mem_append_right _ h

/-- A request names its call. -/
theorem SubmitFrame.request_inj (h : f.request c = g.request d) :
    c = d ∧ f.op = g.op ∧ f.result = g.result ∧ f.done = g.done := by
  simp only [SubmitFrame.request, PqRequest.mk.injEq, Option.some.injEq] at h
  exact ⟨h.2.2.2, h.1, h.2.1, h.2.2.1⟩

/-- The request of a call is not a background request. -/
theorem SubmitFrame.request_ne : f.request c ≠ precomputeRequest := by
  simp [SubmitFrame.request, precomputeRequest]

/-- A step leaves alone what a call holds. -/
structure Keeps (s s' : PqState) (f : SubmitFrame) : Prop where
  sem : s'.sems f.done = s.sems f.done
  result : s'.frames f.result = s.frames f.result
  owned : ∀ a ∈ f.op.buffers, s'.owner a = s.owner a
  mem : ∀ a ∈ f.op.buffers, s'.mem a = s.mem a
  value : s'.results f.result = s.results f.result
  log : s.log ⊆ s'.log

/-- A call still holds its resources after a step that leaves them and its inputs alone. -/
theorem HoldsFrame.of_inputs {given given' : Bool} (h : HoldsFrame s c f given)
    (hsem : s'.sems f.done = some ⟨given', c⟩) (hresult : s'.frames f.result = s.frames f.result)
    (howned : ∀ a ∈ f.op.buffers, s'.owner a = s.owner a)
    (hmem : ∀ a ∈ f.op.inputs, s'.mem a = s.mem a) (hlog : s.log ⊆ s'.log) :
    HoldsFrame s' c f given' where
  sem := hsem
  result := hresult.trans h.result
  nodup := h.nodup
  owned a ha := (howned a ha).trans (h.owned a ha)
  input := by
    rw [PqOp.input_congr hmem]
    exact hlog h.input

/-- Whatever leaves a call alone keeps what it holds. -/
theorem HoldsFrame.keeps {given : Bool} (h : HoldsFrame s c f given) (hs : Keeps s s' f) :
    HoldsFrame s' c f given :=
  h.of_inputs (hs.sem.trans h.sem) hs.result hs.owned
    (fun a ha => hs.mem a (PqOp.mem_buffers_of_inputs ha)) hs.log

/-- The outputs of a call stay. -/
theorem Completed.of_buffers (h : Completed K s c f)
    (hmem : ∀ a ∈ f.op.buffers, s'.mem a = s.mem a)
    (hvalue : s'.results f.result = s.results f.result) (hlog : s.log ⊆ s'.log) :
    Completed K s' c f := by
  obtain ⟨coins, hexec, hrun⟩ := h
  refine ⟨coins, hlog hexec, ?_⟩
  have houtputs : f.op.outputs.map s'.mem = f.op.outputs.map s.mem :=
    List.map_congr_left fun a ha => hmem a (PqOp.mem_buffers_of_outputs ha)
  rw [PqOp.input_congr fun a ha => hmem a (PqOp.mem_buffers_of_inputs ha), houtputs, hvalue, hrun]

/-- Whatever leaves a call alone keeps its outputs. -/
theorem Completed.keeps (h : Completed K s c f) (hs : Keeps s s' f) : Completed K s' c f :=
  h.of_buffers hs.mem hs.value hs.log

/-- What the crypto task has done stays done where the call of its request is left alone. -/
theorem CryptoPhase.Inv.keeps {task : CryptoPhase} (h : task.Inv K s)
    (hs : ∀ c f, SubmitFrame.request f c ∈ task.request → Keeps s s' f) : task.Inv K s' := by
  cases task with
  | receiving | received => trivial
  | publishing => exact h
  | writing req todo ret =>
    refine ⟨h.1, ?_⟩
    rintro c f rfl
    have hkeeps := hs c f (List.mem_singleton.2 rfl)
    obtain ⟨coins, outs, hexec, hrun, htodo, hwritten⟩ := h.2 c f rfl
    refine ⟨coins, outs, hkeeps.log hexec, ?_, htodo, fun w hw => ?_⟩
    · rw [PqOp.input_congr fun a ha => hkeeps.mem a (PqOp.mem_buffers_of_inputs ha), hrun]
    · rw [hkeeps.mem w.1 (PqOp.mem_buffers_of_outputs (List.of_mem_zip hw).1)]
      exact hwritten w hw
  | signaling req =>
    rintro c f rfl
    exact (h c f rfl).keeps (hs c f (List.mem_singleton.2 rfl))

/-- Two calls hold different things. -/
theorem HoldsFrame.disjoint {given given' : Bool} (hf : HoldsFrame s c f given)
    (hg : HoldsFrame s d g given') (hne : d ≠ c) : g.done ≠ f.done ∧ g.result ≠ f.result ∧
      ∀ a ∈ g.op.buffers, a ∉ f.op.buffers := by
  refine ⟨fun h => ?_, fun h => ?_, fun a ha hmem => ?_⟩
  · have hsem := hf.sem
    rw [← h, hg.sem] at hsem
    exact hne (by simpa using (congrArg (Option.map DoneSem.call) hsem))
  · have hresult := hf.result
    rw [← h, hg.result] at hresult
    exact hne (Option.some.inj hresult)
  · exact hne (Option.some.inj ((hg.owned a ha).symm.trans (hf.owned a hmem)))

/-! ### The log -/

/-- A new event keeps the calls untouched that have returned. -/
theorem Untouched.cons {log : List PqEvent} {e : PqEvent} (h : Untouched log)
    (he : ∀ e' ∈ log, ∀ c, e'.isReturn c = true → e.touches c = false) : Untouched (e :: log) :=
  List.pairwise_cons.2 ⟨he, h⟩

/-- An event that is no success keeps the successes. -/
theorem OwnOutputs.cons {log : List PqEvent} {e : PqEvent} (h : OwnOutputs K log)
    (he : ∀ c contents, e = .returned c .ok contents →
      ∃ input coins, .submitted c input ∈ log ∧ .executed c coins ∈ log ∧
        input.run K coins = (contents, 0)) : OwnOutputs K (e :: log) := by
  intro before c contents hsuffix
  rcases List.suffix_cons_iff.1 hsuffix with heq | hold
  · obtain ⟨rfl, rfl⟩ := List.cons.inj heq
    exact he c contents rfl
  · exact h before c contents hold

/-- What the crypto task notes for an outstanding request. -/
theorem Inv.note (h : Inv K s) {req : PqRequest} (hreq : req ∈ s.outstanding)
    (event : ℕ → PqEvent) (hreturn : ∀ c d, (event c).isReturn d = false)
    (htouch : ∀ c d, (event c).touches d = true → d = c) :
    (∀ e ∈ s.note req event, ∀ c, e.isReturn c = true → s.calls c = some .returned) ∧
      Untouched (s.note req event) ∧ OwnOutputs K (s.note req event) ∧
        s.log ⊆ s.note req event := by
  rcases h.outstanding req hreq with rfl | ⟨c, f, hwaiting, rfl⟩
  · exact ⟨h.returned, h.untouched, h.own, List.Subset.refl _⟩
  · refine ⟨fun e he d hd => ?_, h.untouched.cons fun e he d hd => ?_,
      h.own.cons fun d contents hd => ?_, List.subset_cons_self _ _⟩
    · rcases List.mem_cons.1 he with rfl | he
      · rw [hreturn] at hd
        cases hd
      · exact h.returned e he d hd
    · have hreturned := h.returned e he d hd
      by_contra htouched
      rw [Bool.not_eq_false] at htouched
      obtain rfl := htouch c d htouched
      rw [hwaiting] at hreturned
      cases hreturned
    · have hno := hreturn c d
      rw [hd] at hno
      simp [PqEvent.isReturn] at hno

/-! ### Steps of the callers -/

/-- A step of one call, which is not left waiting, keeps the invariant when it leaves the other
calls alone. -/
theorem Inv.frame (h : Inv K s) (c : ℕ) (hout : s'.outstanding = s.outstanding)
    (htask : s'.task = s.task) (hcalls : ∀ d ≠ c, s'.calls d = s.calls d)
    (hkeeps : ∀ d ≠ c, ∀ g given, HoldsFrame s d g given → Keeps s s' g)
    (hnot : ∀ f, s.calls c = some (.waiting f) → f.request c ∉ s.outstanding)
    (hsending : ∀ f, s'.calls c = some (.sending f) → HoldsFrame s' c f false)
    (hwaiting : ∀ f, s'.calls c ≠ some (.waiting f))
    (hreturned : ∀ e ∈ s'.log, ∀ d, e.isReturn d = true → s'.calls d = some .returned)
    (huntouched : Untouched s'.log) (hown : OwnOutputs K s'.log) : Inv K s' := by
  have hother : ∀ req ∈ s.outstanding, req = precomputeRequest ∨
      ∃ d g, d ≠ c ∧ s.calls d = some (.waiting g) ∧ req = g.request d := by
    intro req hreq
    rcases h.outstanding req hreq with heq | ⟨d, g, hd, rfl⟩
    · exact .inl heq
    · refine .inr ⟨d, g, ?_, hd, rfl⟩
      rintro rfl
      exact hnot g hd hreq
  have hholds : ∀ d g, s.calls d = some (.waiting g) → ∃ given, HoldsFrame s d g given := by
    intro d g hd
    rcases h.waiting d g hd with ⟨hf, -⟩ | ⟨hf, -⟩
    · exact ⟨_, hf⟩
    · exact ⟨_, hf⟩
  refine ⟨fun d g hd => ?_, fun d g hd => ?_, fun req hreq => ?_, ?_, ?_, hreturned, huntouched,
    hown⟩
  · by_cases hdc : d = c
    · subst hdc
      exact hsending g hd
    · rw [hcalls d hdc] at hd
      have hf := h.sending d g hd
      exact hf.keeps (hkeeps d hdc g false hf)
  · by_cases hdc : d = c
    · subst hdc
      exact absurd hd (hwaiting g)
    · rw [hcalls d hdc] at hd
      rw [hout]
      refine (h.waiting d g hd).imp (fun ⟨hf, hin⟩ => ?_) fun ⟨hf, hdone, hin⟩ => ?_
      · exact ⟨hf.keeps (hkeeps d hdc g false hf), hin⟩
      · have hs := hkeeps d hdc g true hf
        exact ⟨hf.keeps hs, hdone.keeps hs, hin⟩
  · rw [hout] at hreq
    refine (hother req hreq).imp id fun ⟨d, g, hdc, hd, heq⟩ => ⟨d, g, ?_, heq⟩
    rw [hcalls d hdc, hd]
  · rw [hout]
    exact h.distinct
  · rw [htask]
    refine h.task.keeps fun d g hin => ?_
    rcases hother _ (List.mem_append_left _ hin) with heq | ⟨d', g', hdc, hd, heq⟩
    · exact absurd heq SubmitFrame.request_ne
    · obtain ⟨rfl, hop, hresult, hdone⟩ := SubmitFrame.request_inj heq
      obtain ⟨given, hf⟩ := hholds d g' hd
      have hs := hkeeps d hdc g' given hf
      exact ⟨hdone ▸ hs.sem, hresult ▸ hs.result, hop ▸ hs.owned, hop ▸ hs.mem, hresult ▸ hs.value,
        hs.log⟩

/-- A return keeps the log in order. -/
theorem Inv.logReturn (h : Inv K s) (c : ℕ) (code : PqErr) (contents : List (List UInt8))
    (hcode : code = .ok → ∃ input coins, .submitted c input ∈ s.log ∧ .executed c coins ∈ s.log ∧
      input.run K coins = (contents, 0)) :
    Untouched (.returned c code contents :: s.log) ∧
      OwnOutputs K (.returned c code contents :: s.log) := by
  refine ⟨h.untouched.cons fun _ _ _ _ => rfl, h.own.cons fun d contents' heq => ?_⟩
  obtain ⟨rfl, rfl, rfl⟩ := PqEvent.returned.inj heq
  exact hcode rfl

/-- A return is noted for the call that returns. -/
theorem Inv.returned_leave (h : Inv K s) {op : PqOp} {code : PqErr} :
    ∀ e ∈ (s.leave c op code).log, ∀ d, e.isReturn d = true →
      (s.leave c op code).calls d = some .returned := by
  intro e he d hd
  rw [PqState.leave] at he ⊢
  dsimp only at he ⊢
  by_cases hdc : d = c
  · rw [hdc, Function.update_self]
  · rw [Function.update_of_ne hdc]
    rcases List.mem_cons.1 he with rfl | he
    · exact absurd (by simpa [PqEvent.isReturn] using hd) hdc
    · exact h.returned e he d hd

/-- A call that returns before it has a semaphore. -/
theorem Inv.leave (h : Inv K s) (hnew : s.calls c = none) {op : PqOp} {code : PqErr}
    (hcode : code ≠ .ok) : Inv K (s.leave c op code) := by
  obtain ⟨huntouched, hown⟩ := h.logReturn c code (op.outputs.map s.mem)
    fun hok => absurd hok hcode
  refine h.frame c rfl rfl (fun d hd => Function.update_of_ne hd _ _)
    (fun d _ g given _ => ⟨rfl, rfl, fun _ _ => rfl, fun _ _ => rfl, rfl,
      List.subset_cons_self _ _⟩) (fun f hf => ?_) (fun f hf => ?_) (fun f hf => ?_)
    h.returned_leave huntouched hown
  · rw [hnew] at hf
    cases hf
  · rw [PqState.leave] at hf
    dsimp only at hf
    rw [Function.update_self] at hf
    cases hf
  · rw [PqState.leave] at hf
    dsimp only at hf
    rw [Function.update_self] at hf
    cases hf

/-- A call that returns with its semaphore, while its request is not outstanding. -/
theorem Inv.finish (h : Inv K s) {given : Bool} (hf : HoldsFrame s c f given)
    (hnot : ∀ g, s.calls c = some (.waiting g) → g.request c ∉ s.outstanding) {code : PqErr}
    (hcode : code = .ok → Completed K s c f ∧ s.results f.result = 0) :
    Inv K (s.finish c f code) := by
  obtain ⟨huntouched, hown⟩ := h.logReturn c code (f.op.outputs.map s.mem)
      fun hok => by
    obtain ⟨⟨coins, hexec, hrun⟩, hzero⟩ := hcode hok
    exact ⟨_, coins, hf.input, hexec, by rw [hrun, hzero]⟩
  refine h.frame c rfl rfl (fun d hd => Function.update_of_ne hd _ _) (fun d hd g given' hg => ?_)
    hnot (fun g hg => ?_) (fun g hg => ?_) h.returned_leave huntouched hown
  · obtain ⟨hdone, hresult, hbuffers⟩ := hf.disjoint hg hd
    exact ⟨Function.update_of_ne hdone _ _, Function.update_of_ne hresult _ _,
      fun a ha => if_neg (hbuffers a ha), fun _ _ => rfl, rfl, List.subset_cons_self _ _⟩
  · rw [PqState.finish, PqState.leave] at hg
    dsimp only at hg
    rw [Function.update_self] at hg
    cases hg
  · rw [PqState.finish, PqState.leave] at hg
    dsimp only at hg
    rw [Function.update_self] at hg
    cases hg

/-- A call is made. -/
theorem Inv.submitRequest (h : Inv K s) (c : ℕ) (f : SubmitFrame) (semCreated : Bool) :
    Inv K (s.submitRequest c f semCreated) := by
  rw [PqState.submitRequest]
  by_cases hnew : s.calls c = none
  swap
  · rw [if_pos hnew]
    exact h
  rw [if_neg (not_not.2 hnew)]
  split
  · exact h.leave hnew (by simp)
  split
  · exact h.leave hnew (by simp)
  split
  swap
  · exact h
  rename_i hfree
  obtain ⟨hsem, hresult, hnodup, hbuffers⟩ := hfree
  refine h.frame c rfl rfl (fun d hd => Function.update_of_ne hd _ _) (fun d hd g given hg => ?_)
    (fun g hg => ?_) (fun g hg => ?_) (fun g hg => ?_) (fun e he d hd => ?_) ?_ ?_
  · refine ⟨Function.update_of_ne ?_ _ _, Function.update_of_ne ?_ _ _, fun a ha => if_neg ?_,
      fun _ _ => rfl, Function.update_of_ne ?_ _ _, List.subset_cons_self _ _⟩
    · rintro heq
      rw [← heq, hg.sem] at hsem
      cases hsem
    · rintro heq
      rw [← heq, hg.result] at hresult
      cases hresult
    · intro hin
      exact absurd ((hg.owned a ha).symm.trans (hbuffers a hin)) (by simp)
    · rintro heq
      rw [← heq, hg.result] at hresult
      cases hresult
  · rw [hnew] at hg
    cases hg
  · dsimp only at hg
    rw [Function.update_self] at hg
    obtain rfl : f = g := by simpa using hg
    exact ⟨Function.update_self .., Function.update_self .., hnodup, fun a ha => if_pos ha,
      List.mem_cons_self⟩
  · dsimp only at hg
    rw [Function.update_self] at hg
    cases hg
  · rcases List.mem_cons.1 he with rfl | hold
    · cases hd
    · have hreturned := h.returned e hold d hd
      have hdc : d ≠ c := by
        rintro rfl
        rw [hnew] at hreturned
        cases hreturned
      dsimp only
      rw [Function.update_of_ne hdc]
      exact hreturned
  · exact h.untouched.cons fun _ _ _ _ => rfl
  · exact h.own.cons fun _ _ heq => by cases heq

/-- A call that is still sending has no outstanding request. -/
theorem Inv.not_outstanding_of_sending (h : Inv K s) (hc : s.calls c = some (.sending f))
    (g : SubmitFrame) : g.request c ∉ s.outstanding := by
  intro hin
  rcases h.outstanding _ hin with heq | ⟨d, f', hd, heq⟩
  · exact SubmitFrame.request_ne heq
  · obtain ⟨rfl, -⟩ := SubmitFrame.request_inj heq
    rw [hc] at hd
    cases hd

/-- A request is queued. -/
theorem Inv.queueSend (h : Inv K s) (c : ℕ) : Inv K (s.queueSend c) := by
  rw [PqState.queueSend]
  split
  swap
  · exact h
  rename_i f hc
  split
  swap
  · exact h
  have hf := h.sending c f hc
  have hnot := h.not_outstanding_of_sending hc
  have hcalls : ∀ d ≠ c, Function.update s.calls c (some (.waiting f)) d = s.calls d :=
    fun d hd => Function.update_of_ne hd _ _
  have hsame : ∀ g : SubmitFrame, Keeps s { s with
      calls := Function.update s.calls c (some (.waiting f))
      queue := s.queue ++ [f.request c] } g := fun g =>
    ⟨rfl, rfl, fun _ _ => rfl, fun _ _ => rfl, rfl, List.Subset.refl _⟩
  have hout : (PqState.outstanding { s with
      calls := Function.update s.calls c (some (.waiting f))
      queue := s.queue ++ [f.request c] }) = s.outstanding ++ [f.request c] :=
    (List.append_assoc _ _ _).symm
  refine ⟨fun d g hd => ?_, fun d g hd => ?_, fun req hreq => ?_, ?_,
    h.task.keeps fun _ g _ => hsame g, fun e he d hd => ?_, h.untouched, h.own⟩
  · dsimp only at hd
    by_cases hdc : d = c
    · rw [hdc, Function.update_self] at hd
      cases hd
    · rw [hcalls d hdc] at hd
      exact (h.sending d g hd).keeps (hsame g)
  · dsimp only at hd
    rw [hout]
    by_cases hdc : d = c
    · subst hdc
      rw [Function.update_self] at hd
      obtain rfl : f = g := by simpa using hd
      exact .inl ⟨hf.keeps (hsame f), List.mem_append_right _ (List.mem_singleton.2 rfl)⟩
    · rw [hcalls d hdc] at hd
      rcases h.waiting d g hd with ⟨hg, hin⟩ | ⟨hg, hdone, hin⟩
      · exact .inl ⟨hg.keeps (hsame g), List.mem_append_left _ hin⟩
      · refine .inr ⟨hg.keeps (hsame g), hdone.keeps (hsame g), fun hmem => ?_⟩
        rcases List.mem_append.1 hmem with hmem | hmem
        · exact hin hmem
        · exact hdc (SubmitFrame.request_inj (List.mem_singleton.1 hmem)).1
  · rw [hout] at hreq
    rcases List.mem_append.1 hreq with hreq | hreq
    · refine (h.outstanding req hreq).imp id fun ⟨d, g, hd, heq⟩ => ⟨d, g, ?_, heq⟩
      have hdc : d ≠ c := by
        rintro rfl
        rw [hc] at hd
        cases hd
      exact (hcalls d hdc).trans hd
    · exact .inr ⟨c, f, Function.update_self .., List.mem_singleton.1 hreq⟩
  · rw [hout, List.filterMap_append, List.nodup_append']
    refine ⟨h.distinct, List.nodup_singleton c, fun d hd hmem => ?_⟩
    obtain rfl : d = c := by simpa [SubmitFrame.request] using hmem
    obtain ⟨req, hreq, hcall⟩ := List.mem_filterMap.1 hd
    rcases h.outstanding req hreq with rfl | ⟨d', g, -, rfl⟩
    · cases hcall
    · obtain rfl : d' = d := by simpa [SubmitFrame.request] using hcall
      exact hnot g hreq
  · have hreturned := h.returned e he d hd
    have hdc : d ≠ c := by
      rintro rfl
      rw [hc] at hreturned
      cases hreturned
    exact (hcalls d hdc).trans hreturned

/-- A background request is queued, or something changes that no call has. -/
theorem Inv.background (h : Inv K s) (initialized : Bool)
    (precomp : Option (List UInt8 × List UInt8)) (more : List PqRequest)
    (hmore : ∀ req ∈ more, req = precomputeRequest) :
    Inv K { s with
      initialized := initialized
      precomp := precomp
      queue := s.queue ++ more } := by
  have hsame : ∀ g : SubmitFrame, Keeps s { s with
      initialized := initialized
      precomp := precomp
      queue := s.queue ++ more } g := fun g =>
    ⟨rfl, rfl, fun _ _ => rfl, fun _ _ => rfl, rfl, List.Subset.refl _⟩
  have hout : (PqState.outstanding { s with
      initialized := initialized
      precomp := precomp
      queue := s.queue ++ more }) = s.outstanding ++ more := (List.append_assoc _ _ _).symm
  refine ⟨fun d g hd => (h.sending d g hd).keeps (hsame g), fun d g hd => ?_, fun req hreq => ?_, ?_,
    h.task.keeps fun _ g _ => hsame g, h.returned, h.untouched, h.own⟩
  · rw [hout]
    rcases h.waiting d g hd with ⟨hg, hin⟩ | ⟨hg, hdone, hin⟩
    · exact .inl ⟨hg.keeps (hsame g), List.mem_append_left _ hin⟩
    · refine .inr ⟨hg.keeps (hsame g), hdone.keeps (hsame g), fun hmem => ?_⟩
      rcases List.mem_append.1 hmem with hmem | hmem
      · exact hin hmem
      · exact SubmitFrame.request_ne (hmore _ hmem)
  · rw [hout] at hreq
    exact (List.mem_append.1 hreq).elim (h.outstanding req) fun hreq => .inl (hmore req hreq)
  · have hnone : more.filterMap PqRequest.call = [] :=
      List.filterMap_eq_nil_iff.2 fun req hreq => by rw [hmore req hreq]; rfl
    rw [hout, List.filterMap_append, hnone, List.append_nil]
    exact h.distinct

/-- A call whose semaphore was given returns. -/
theorem Inv.semaphoreTake (h : Inv K s) (c : ℕ) : Inv K (s.semaphoreTake c) := by
  rw [PqState.semaphoreTake]
  split
  swap
  · exact h
  rename_i f hc
  split
  swap
  · exact h
  rename_i hgiven
  rcases h.waiting c f hc with ⟨hf, -⟩ | ⟨hf, hdone, hin⟩
  · rw [hf.sem] at hgiven
    cases hgiven
  · refine h.finish hf (fun g hg => ?_) fun hcode => ⟨hdone, ?_⟩
    · rw [hc] at hg
      obtain rfl : f = g := by simpa using hg
      exact hin
    · by_contra hno
      rw [if_neg hno] at hcode
      cases hcode

/-- A call that finds the queue full returns. -/
theorem Inv.queueFull (h : Inv K s) (c : ℕ) : Inv K (s.queueFull c) := by
  rw [PqState.queueFull]
  split
  swap
  · exact h
  rename_i f hc
  split
  · exact h
  · exact h.finish (h.sending c f hc) (fun g _ => h.not_outstanding_of_sending hc g) (by simp)

/-! ### Steps of the crypto task -/

/-- A step of the crypto task that keeps its request and gives no semaphore. -/
theorem Inv.working (h : Inv K s) (hout : s'.outstanding = s.outstanding)
    (hcalls : s'.calls = s.calls) (hsems : s'.sems = s.sems) (hframes : s'.frames = s.frames)
    (howner : s'.owner = s.owner) (hlog : s.log ⊆ s'.log)
    (hinputs : ∀ d g given, s.calls d = some (.sending g) ∨ s.calls d = some (.waiting g) →
      HoldsFrame s d g given → ∀ a ∈ g.op.inputs, s'.mem a = s.mem a)
    (hdone : ∀ d g, s.calls d = some (.waiting g) → HoldsFrame s d g true →
      g.request d ∉ s.outstanding → Completed K s d g → Completed K s' d g)
    (htask : s'.task.Inv K s')
    (hreturned : ∀ e ∈ s'.log, ∀ d, e.isReturn d = true → s.calls d = some .returned)
    (huntouched : Untouched s'.log) (hown : OwnOutputs K s'.log) : Inv K s' := by
  have hholds : ∀ d g given, s.calls d = some (.sending g) ∨ s.calls d = some (.waiting g) →
      HoldsFrame s d g given → HoldsFrame s' d g given := fun d g given hd hg =>
    hg.of_inputs (by rw [hsems, hg.sem]) (by rw [hframes]) (fun a _ => by rw [howner])
      (hinputs d g given hd hg) hlog
  refine ⟨fun d g hd => ?_, fun d g hd => ?_, fun req hreq => ?_, ?_, htask, fun e he d hd => ?_,
    huntouched, hown⟩
  · rw [hcalls] at hd
    exact hholds d g _ (.inl hd) (h.sending d g hd)
  · rw [hcalls] at hd
    rw [hout]
    rcases h.waiting d g hd with ⟨hg, hin⟩ | ⟨hg, hcompleted, hin⟩
    · exact .inl ⟨hholds d g _ (.inr hd) hg, hin⟩
    · exact .inr ⟨hholds d g _ (.inr hd) hg, hdone d g hd hg hin hcompleted, hin⟩
  · rw [hout] at hreq
    rw [hcalls]
    exact h.outstanding req hreq
  · rw [hout]
    exact h.distinct
  · rw [hcalls]
    exact hreturned e he d hd

/-- An address that occurs once in a list is paired with one value. -/
theorem zip_unique {as : List ℕ} {values : List (List UInt8)} (h : as.Nodup) {a : ℕ}
    {v w : List UInt8} (hv : (a, v) ∈ as.zip values) (hw : (a, w) ∈ as.zip values) : v = w := by
  induction as generalizing values with
  | nil => cases hv
  | cons b as ih =>
    cases values with
    | nil => cases hv
    | cons u values =>
      rw [List.zip_cons_cons, List.mem_cons, Prod.mk.injEq] at hv hw
      obtain ⟨hb, hnodup⟩ := List.nodup_cons.1 h
      rcases hv with ⟨rfl, rfl⟩ | hv
      · rcases hw with ⟨-, rfl⟩ | hw
        · rfl
        · exact absurd (List.of_mem_zip hw).1 hb
      · rcases hw with ⟨rfl, rfl⟩ | hw
        · exact absurd (List.of_mem_zip hv).1 hb
        · exact ih hnodup hv hw

/-- A request is executed. -/
theorem Inv.execute (h : Inv K s) {req : PqRequest} (htask : s.task = .received req) {op : PqOp}
    (hop : req.op = some op) (coins : List UInt8) : Inv K { s with
      task := .writing req (op.outputs.zip ((op.input s.mem).run K coins).1)
        ((op.input s.mem).run K coins).2
      log := s.note req fun c => .executed c coins } := by
  have hreq : req ∈ s.outstanding := by simp [PqState.outstanding, htask, CryptoPhase.request]
  obtain ⟨hreturned, huntouched, hown, hlog⟩ := h.note hreq (fun c => .executed c coins)
    (fun _ _ => rfl) (fun _ _ hd => by cases hd)
  refine h.working ?_ rfl rfl rfl rfl hlog (fun _ _ _ _ _ _ _ => rfl) (fun d g _ _ _ hdone =>
    hdone.of_buffers (fun _ _ => rfl) rfl hlog) ?_ hreturned huntouched hown
  · simp [PqState.outstanding, htask, CryptoPhase.request]
  · refine ⟨by rw [hop]; rfl, ?_⟩
    rintro c f rfl
    obtain rfl : f.op = op := by simpa [SubmitFrame.request] using hop
    refine ⟨coins, _, ?_, rfl, fun w hw => hw, fun w hw => .inl hw⟩
    exact List.mem_cons_self

/-- An output buffer is written. -/
theorem Inv.write (h : Inv K s) {req : PqRequest} {a : ℕ} {value : List UInt8}
    {todo : List (ℕ × List UInt8)} {ret : ℤ} (htask : s.task = .writing req ((a, value) :: todo) ret) :
    Inv K { s with
      task := .writing req todo ret
      mem := Function.update s.mem a value
      log := s.note req fun c => .wrote c a } := by
  have hreq : req ∈ s.outstanding := by simp [PqState.outstanding, htask, CryptoPhase.request]
  obtain ⟨hreturned, huntouched, hown, hlog⟩ := h.note hreq (fun c => .wrote c a)
    (fun _ _ => rfl) (fun _ _ hd => by simpa [PqEvent.touches] using hd)
  have hinv := h.task
  rw [htask] at hinv
  rcases h.outstanding req hreq with rfl | ⟨c, f, hc, rfl⟩
  · cases hinv.1
  obtain ⟨coins, outs, hexec, hrun, htodo, hwritten⟩ := hinv.2 c f rfl
  have houtput : a ∈ f.op.outputs := (List.of_mem_zip (htodo _ List.mem_cons_self)).1
  have hf : HoldsFrame s c f false := by
    rcases h.waiting c f hc with ⟨hf, -⟩ | ⟨-, -, hin⟩
    · exact hf
    · exact absurd hreq hin
  have hother : ∀ d g given, HoldsFrame s d g given → d ≠ c → ∀ b ∈ g.op.buffers,
      Function.update s.mem a value b = s.mem b := by
    intro d g given hg hdc b hb
    refine Function.update_of_ne ?_ _ _
    rintro rfl
    exact (hf.disjoint hg hdc).2.2 b hb (PqOp.mem_buffers_of_outputs houtput)
  have hinputs : ∀ b ∈ f.op.inputs, Function.update s.mem a value b = s.mem b := by
    intro b hb
    refine Function.update_of_ne ?_ _ _
    rintro rfl
    exact (List.nodup_append'.1 hf.nodup).2.2 houtput hb
  have hsame : ∀ g, s.calls c = some (.sending g) ∨ s.calls c = some (.waiting g) → f = g := by
    intro g hg
    rw [hc] at hg
    simpa using hg
  refine h.working ?_ rfl rfl rfl rfl hlog (fun d g given hd hg b hb => ?_)
    (fun d g hd hg hin hdone => ?_) ?_ hreturned huntouched hown
  · simp [PqState.outstanding, htask, CryptoPhase.request]
  · by_cases hdc : d = c
    · subst hdc
      obtain rfl := hsame g hd
      exact hinputs b hb
    · exact hother d g given hg hdc b (PqOp.mem_buffers_of_inputs hb)
  · have hdc : d ≠ c := by
      rintro rfl
      obtain rfl := hsame g (.inr hd)
      exact hin hreq
    exact hdone.of_buffers (hother d g true hg hdc) rfl hlog
  · refine ⟨hinv.1, fun c' f' heq => ?_⟩
    obtain ⟨rfl, hop', -, -⟩ := SubmitFrame.request_inj heq
    rw [← hop']
    refine ⟨coins, outs, hlog hexec, ?_, fun w hw => htodo w (List.mem_cons_of_mem _ hw),
      fun ⟨b, v⟩ hw => ?_⟩
    · dsimp only
      rw [PqOp.input_congr hinputs, hrun]
    · dsimp only
      have hnodup : f.op.outputs.Nodup := (List.nodup_append'.1 hf.nodup).1
      by_cases hba : b = a
      · subst hba
        rw [Function.update_self]
        exact .inr (zip_unique hnodup (htodo _ List.mem_cons_self) hw)
      · rw [Function.update_of_ne hba]
        refine (hwritten _ hw).imp (fun hmem => ?_) id
        exact (List.mem_cons.1 hmem).resolve_left fun heq => hba (congrArg Prod.fst heq)

/-- A list is what its zip says. -/
theorem map_eq_of_zip {as : List ℕ} {values : List (List UInt8)} {mem : ℕ → List UInt8}
    (hlen : values.length = as.length) (h : ∀ w ∈ as.zip values, mem w.1 = w.2) :
    as.map mem = values := by
  induction as generalizing values with
  | nil => exact (List.length_eq_zero_iff.1 hlen).symm
  | cons a as ih =>
    cases values with
    | nil => cases hlen
    | cons v values =>
      rw [List.zip_cons_cons] at h
      rw [List.map_cons, h _ List.mem_cons_self,
        ih (by simpa using hlen) fun w hw => h w (List.mem_cons_of_mem _ hw)]

/-- The return value is stored. -/
theorem Inv.storeResult (h : Inv K s) {req : PqRequest} {ret : ℤ}
    (htask : s.task = .writing req [] ret) : Inv K (s.storeResult req ret) := by
  have hreq : req ∈ s.outstanding := by simp [PqState.outstanding, htask, CryptoPhase.request]
  obtain ⟨hreturned, huntouched, hown, hlog⟩ := h.note hreq .stored (fun _ _ => rfl)
    (fun _ _ hd => by simpa [PqEvent.touches] using hd)
  have hinv := h.task
  rw [htask] at hinv
  rcases h.outstanding req hreq with rfl | ⟨c, f, hc, rfl⟩
  · cases hinv.1
  obtain ⟨coins, outs, hexec, hrun, -, hwritten⟩ := hinv.2 c f rfl
  have hf : HoldsFrame s c f false := by
    rcases h.waiting c f hc with ⟨hf, -⟩ | ⟨-, -, hin⟩
    · exact hf
    · exact absurd hreq hin
  refine h.working ?_ rfl rfl rfl rfl hlog (fun _ _ _ _ _ _ _ => rfl)
    (fun d g hd hg hin hdone => ?_) ?_ hreturned huntouched hown
  · simp [PqState.outstanding, PqState.storeResult, htask, CryptoPhase.request]
  · have hdc : d ≠ c := by
      rintro rfl
      obtain rfl : f = g := by simpa [hc] using hd
      exact hin hreq
    exact hdone.of_buffers (fun _ _ => rfl)
      (Function.update_of_ne (hf.disjoint hg hdc).2.1 _ _) hlog
  · intro c' f' heq
    obtain ⟨rfl, hop, hresult, -⟩ := SubmitFrame.request_inj heq
    have hlen : outs.length = f.op.outputs.length := by
      rw [← PqOp.run_length K coins s.mem, hrun]
    have houtputs : f.op.outputs.map s.mem = outs :=
      map_eq_of_zip hlen fun w hw => (hwritten w hw).resolve_left (List.not_mem_nil)
    refine ⟨coins, hlog hexec, ?_⟩
    have hvalue : (s.storeResult (f.request c) ret).results f'.result = ret := by
      rw [← hresult]
      exact Function.update_self ..
    rw [hvalue, ← hop]
    exact hrun.trans (by rw [← houtputs]; rfl)

/-- The semaphore of a request is given. -/
theorem Inv.giveDone (h : Inv K s) {req : PqRequest} (htask : s.task = .signaling req) :
    Inv K (s.giveDone req) := by
  have hreq : req ∈ s.outstanding := by simp [PqState.outstanding, htask, CryptoPhase.request]
  have hout : s.outstanding = req :: (s.giveDone req).outstanding := by
    rw [PqState.outstanding, htask]
    rfl
  obtain ⟨hreturned, huntouched, hown, hlog⟩ := h.note hreq .gave (fun _ _ => rfl)
    (fun _ _ hd => by simpa [PqEvent.touches] using hd)
  have hdistinct := h.distinct
  rw [hout] at hdistinct
  have hinv := h.task
  rw [htask] at hinv
  have hothers : ∀ d g given, HoldsFrame s d g given → req.call ≠ some d →
      HoldsFrame (s.giveDone req) d g given := by
    intro d g given hg hne
    refine hg.of_inputs ?_ rfl (fun _ _ => rfl) (fun _ _ => rfl) hlog
    rcases h.outstanding req hreq with rfl | ⟨c, f, hc, rfl⟩
    · exact hg.sem
    · have hf : HoldsFrame s c f false := by
        rcases h.waiting c f hc with ⟨hf, -⟩ | ⟨-, -, hin⟩
        · exact hf
        · exact absurd hreq hin
      have hdc : d ≠ c := fun heq => hne (heq ▸ rfl)
      exact (Function.update_of_ne (hf.disjoint hg hdc).1 _ _).trans hg.sem
  have hsending : ∀ d g, s.calls d = some (.sending g) → req.call ≠ some d := by
    intro d g hd hcall
    rcases h.outstanding req hreq with rfl | ⟨c, f, hc, rfl⟩
    · cases hcall
    · obtain rfl : c = d := by simpa [SubmitFrame.request] using hcall
      rw [hd] at hc
      cases hc
  refine ⟨fun d g hd => hothers d g _ (h.sending d g hd) (hsending d g hd), fun d g hd => ?_,
    fun r hr => h.outstanding r (hout ▸ List.mem_cons_of_mem _ hr), ?_, trivial, hreturned,
    huntouched, hown⟩
  · by_cases hcall : req.call = some d
    · right
      obtain ⟨f, hdf, rfl⟩ : ∃ f, s.calls d = some (.waiting f) ∧ req = f.request d := by
        rcases h.outstanding req hreq with rfl | ⟨c, f, hc, rfl⟩
        · cases hcall
        · obtain rfl : c = d := by simpa [SubmitFrame.request] using hcall
          exact ⟨f, hc, rfl⟩
      obtain rfl : f = g := by
        have hsame : s.calls d = some (.waiting g) := hd
        rw [hdf] at hsame
        simpa using hsame
      have hnot : f.request d ∉ (s.giveDone (f.request d)).outstanding := by
        intro hin
        rw [List.filterMap_cons_some hcall, List.nodup_cons] at hdistinct
        exact hdistinct.1 (List.mem_filterMap.2 ⟨_, hin, rfl⟩)
      rcases h.waiting d f hdf with ⟨hf, -⟩ | ⟨-, -, hin⟩
      · refine ⟨hf.of_inputs ?_ rfl (fun _ _ => rfl) (fun _ _ => rfl) hlog,
          (hinv d f rfl).of_buffers (fun _ _ => rfl) rfl hlog, hnot⟩
        refine (Function.update_self ..).trans ?_
        rw [hf.sem]
        rfl
      · exact absurd hreq hin
    · rcases h.waiting d g hd with ⟨hg, hin⟩ | ⟨hg, hdone, hin⟩
      · refine .inl ⟨hothers d g _ hg hcall, ?_⟩
        rw [hout] at hin
        refine (List.mem_cons.1 hin).resolve_left fun heq => hcall ?_
        rw [← heq]
        rfl
      · refine .inr ⟨hothers d g _ hg hcall, hdone.of_buffers (fun _ _ => rfl) rfl hlog,
          fun hmem => hin ?_⟩
        rw [hout]
        exact List.mem_cons_of_mem _ hmem
  · exact hdistinct.sublist ((List.sublist_cons_self _ _).filterMap _)

/-- The crypto task goes on without touching memory or semaphores. -/
theorem Inv.proceed (h : Inv K s) {task : CryptoPhase} {queue : List PqRequest}
    {precomp : Option (List UInt8 × List UInt8)} (hout : task.request ++ queue = s.outstanding)
    (htask : ∀ s', task.Inv K s') :
    Inv K { s with
      task := task
      queue := queue
      precomp := precomp } :=
  h.working hout rfl rfl rfl rfl (List.Subset.refl _) (fun _ _ _ _ _ _ _ => rfl)
    (fun _ _ _ _ _ hdone => hdone.of_buffers (fun _ _ => rfl) rfl (List.Subset.refl _))
    (htask _) h.returned h.untouched h.own

/-- A background request has no call. -/
theorem Inv.background_of_op (h : Inv K s) {req : PqRequest} (hreq : req ∈ s.outstanding)
    (hop : req.op = none) : req = precomputeRequest := by
  rcases h.outstanding req hreq with heq | ⟨c, f, -, rfl⟩
  · exact heq
  · cases hop

/-- Every step of the crypto task keeps the invariant. -/
theorem Inv.cryptoStep (h : Inv K s) (coins : List UInt8) : Inv K (s.cryptoStep K coins) := by
  rw [PqState.cryptoStep]
  cases htask : s.task with
  | receiving =>
    cases hqueue : s.queue with
    | nil => exact h
    | cons req rest =>
      refine h.proceed ?_ fun _ => trivial
      simp [PqState.outstanding, htask, hqueue, CryptoPhase.request]
  | received req =>
    have hreq : req ∈ s.outstanding := by simp [PqState.outstanding, htask, CryptoPhase.request]
    dsimp only
    cases hop : req.op with
    | some op => exact h.execute htask hop coins
    | none =>
      obtain rfl := h.background_of_op hreq hop
      dsimp only
      split
      · refine h.proceed ?_ fun _ c f heq => absurd heq.symm SubmitFrame.request_ne
        simp [PqState.outstanding, htask, CryptoPhase.request]
      · refine h.proceed ?_ fun _ => rfl
        simp [PqState.outstanding, htask, CryptoPhase.request]
  | writing req todo ret =>
    cases todo with
    | nil => exact h.storeResult htask
    | cons w todo => exact h.write htask
  | publishing req pair ret =>
    have hinv := h.task
    rw [htask] at hinv
    obtain rfl : req = precomputeRequest := hinv
    refine h.proceed ?_ fun _ c f heq => absurd heq.symm SubmitFrame.request_ne
    simp [PqState.outstanding, htask, CryptoPhase.request]
  | signaling req => exact h.giveDone htask

/-! ### Runs without a timeout -/

/-- The step is no waiting time that runs out. -/
def PqState.InTime (s : PqState) : PqLabel → Prop
  | .waitTimeout c => ¬ s.TimesOut c
  | _ => True

instance (s : PqState) : (label : PqLabel) → Decidable (s.InTime label)
  | .waitTimeout c => inferInstanceAs (Decidable (¬ s.TimesOut c))
  | .init _ | .call _ _ _ | .queueSend _ | .queueFull _ | .semaphoreTake _ | .crypto _ | .precompute
  | .getPrecomputed | .fill _ _ => isTrue trivial

/-- A caller that has no part in any request writes to its own memory. -/
theorem Inv.copyOut (h : Inv K s) {a : ℕ} (ha : s.owner a = none) (key : List UInt8) :
    Inv K { s with mem := Function.update s.mem a key } := by
  have hkeeps : ∀ c f given, HoldsFrame s c f given →
      Keeps s { s with mem := Function.update s.mem a key } f := by
    intro c f given hf
    refine ⟨rfl, rfl, fun _ _ => rfl, fun b hb => ?_, rfl, List.Subset.refl _⟩
    refine Function.update_of_ne ?_ _ _
    rintro rfl
    rw [hf.owned b hb] at ha
    cases ha
  have hwaiting : ∀ c f, s.calls c = some (.waiting f) → ∃ given, HoldsFrame s c f given := by
    intro c f hc
    rcases h.waiting c f hc with ⟨hf, -⟩ | ⟨hf, -⟩
    · exact ⟨_, hf⟩
    · exact ⟨_, hf⟩
  refine ⟨fun c f hc => ?_, fun c f hc => ?_, h.outstanding, h.distinct, ?_, h.returned,
    h.untouched, h.own⟩
  · have hf := h.sending c f hc
    exact hf.keeps (hkeeps c f false hf)
  · rcases h.waiting c f hc with ⟨hf, hin⟩ | ⟨hf, hdone, hin⟩
    · exact .inl ⟨hf.keeps (hkeeps c f false hf), hin⟩
    · have hs := hkeeps c f true hf
      exact .inr ⟨hf.keeps hs, hdone.keeps hs, hin⟩
  · refine h.task.keeps fun c f hin => ?_
    rcases h.outstanding _ (List.mem_append_left _ hin) with heq | ⟨d, g, hd, heq⟩
    · exact absurd heq SubmitFrame.request_ne
    · obtain ⟨rfl, hop, hresult, hdone⟩ := SubmitFrame.request_inj heq
      obtain ⟨given, hg⟩ := hwaiting c g hd
      have hs := hkeeps c g given hg
      exact ⟨rfl, rfl, fun _ _ => rfl, hop ▸ hs.mem, rfl, List.Subset.refl _⟩

/-- Every step in time keeps the invariant. -/
theorem Inv.step (h : Inv K s) {label : PqLabel} (hin : s.InTime label) :
    Inv K (s.step K label) := by
  cases label with
  | init ok =>
    have hbackground := h.background (s.initialized || ok) s.precomp [] (by simp)
    rwa [List.append_nil] at hbackground
  | call c f semCreated => exact h.submitRequest c f semCreated
  | queueSend c => exact h.queueSend c
  | queueFull c => exact h.queueFull c
  | semaphoreTake c => exact h.semaphoreTake c
  | waitTimeout c =>
    rw [PqState.step, PqState.waitTimeout]
    split
    · rw [if_neg hin]
      exact h
    · exact h
  | crypto coins => exact h.cryptoStep coins
  | precompute =>
    rw [PqState.step, PqState.precomputeKeypair]
    split
    · exact h
    split
    · exact h.background s.initialized s.precomp [precomputeRequest] (by simp)
    · exact h
  | getPrecomputed =>
    have hbackground := h.background s.initialized none [] (by simp)
    rwa [List.append_nil] at hbackground
  | fill a value =>
    rw [PqState.step, PqState.fillBuffer]
    split_ifs with ha
    · exact h.copyOut ha value
    · exact h

/-- The device at start-up. -/
theorem Inv.boot (K : Sntrup761) (mem : ℕ → List UInt8) : Inv K (.boot mem) where
  sending c f hc := by cases hc
  waiting c f hc := by cases hc
  outstanding req hreq := by cases hreq
  distinct := List.nodup_nil
  task := trivial
  returned e he := by cases he
  untouched := List.Pairwise.nil
  own before c contents hsuffix := by simp [PqState.boot] at hsuffix

/-- The crypto task leaves the calls alone that have returned, and a call that returns success has
the outputs of its own request, in every run in which no call stops waiting before its semaphore
is given. Calls that find no semaphore or no room in the queue may return at any time. -/
theorem pq_requests_isolated (K : Sntrup761) (mem : ℕ → List UInt8) (labels : List PqLabel)
    (hintime : StepsMeet (PqState.step K) PqState.InTime (.boot mem) labels) :
    Untouched (runFrom (PqState.step K) (.boot mem) labels).log ∧
      OwnOutputs K (runFrom (PqState.step K) (.boot mem) labels).log := by
  have hinv : Inv K (runFrom (PqState.step K) (.boot mem) labels) :=
    hintime.invariant (fun _ _ h hin => h.step hin) (.boot K mem)
  exact ⟨hinv.untouched, hinv.own⟩

/-! ### Runs with a timeout -/

/-- How many steps the crypto task needs at most for a request in each phase. -/
def CryptoPhase.work : CryptoPhase → ℕ
  | .receiving => 0
  | .received _ => 5
  | .writing _ todo _ => todo.length + 2
  | .publishing _ _ _ => 2
  | .signaling _ => 1

/-- How many steps it needs at most for all of them. -/
def PqState.work (s : PqState) : ℕ := s.task.work + 6 * s.queue.length

/-- What the crypto task notes lengthens the log. -/
theorem PqState.suffix_note (s : PqState) (req : PqRequest) (event : ℕ → PqEvent) :
    s.log <:+ s.note req event := by
  rw [PqState.note]
  split
  · exact List.suffix_refl _
  · exact List.suffix_cons _ _

/-- The crypto task signals an outstanding request, or comes nearer to it. -/
theorem cryptoStep_progress {req : PqRequest} (hreq : req ∈ s.outstanding)
    (hcall : req.call = some c) (coins : List UInt8) :
    (s.cryptoStep K coins).log = .gave c :: s.log ∨
      (req ∈ (s.cryptoStep K coins).outstanding ∧ s.log <:+ (s.cryptoStep K coins).log ∧
        (s.cryptoStep K coins).work < s.work) := by
  rw [PqState.outstanding] at hreq
  rw [PqState.cryptoStep, PqState.outstanding, PqState.work, PqState.work]
  cases htask : s.task with
  | receiving =>
    rw [htask] at hreq
    cases hqueue : s.queue with
    | nil =>
      rw [hqueue] at hreq
      cases hreq
    | cons first rest =>
      rw [hqueue] at hreq
      refine .inr ⟨hreq, List.suffix_refl _, ?_⟩
      simp only [CryptoPhase.work, List.length_cons]
      omega
  | received first =>
    rw [htask] at hreq
    dsimp only
    cases hop : first.op with
    | some op =>
      refine .inr ⟨hreq, s.suffix_note _ _, ?_⟩
      have houtputs : op.outputs.length ≤ 2 := by cases op <;> simp [PqOp.outputs]
      simp only [CryptoPhase.work, List.length_zip]
      omega
    | none =>
      right
      dsimp only
      split
      · exact ⟨hreq, List.suffix_refl _, by simp [CryptoPhase.work]⟩
      · exact ⟨hreq, List.suffix_refl _, by simp [CryptoPhase.work]⟩
  | writing first todo ret =>
    rw [htask] at hreq
    right
    cases todo with
    | nil => exact ⟨hreq, s.suffix_note _ _, by simp [PqState.storeResult, CryptoPhase.work]⟩
    | cons w todo => exact ⟨hreq, s.suffix_note _ _, by simp [CryptoPhase.work]⟩
  | publishing first pair ret =>
    rw [htask] at hreq
    exact .inr ⟨hreq, List.suffix_refl _, by simp [CryptoPhase.work]⟩
  | signaling first =>
    rw [htask] at hreq
    rcases List.mem_cons.1 hreq with rfl | hqueue
    · left
      simp only [PqState.giveDone, PqState.note, hcall]
    · exact .inr ⟨hqueue, s.suffix_note _ _, by simp [PqState.giveDone, CryptoPhase.work]⟩

/-- The crypto task gives the semaphore of every outstanding request in the end. -/
theorem gave_of_outstanding {req : PqRequest} (hreq : req ∈ s.outstanding)
    (hcall : req.call = some c) : ∃ n before, s.log <:+ before ∧
      (runFrom (PqState.step K) s (List.replicate n (.crypto []))).log = .gave c :: before := by
  induction hwork : s.work using Nat.strongRecOn generalizing s with
  | _ work ih =>
    rcases cryptoStep_progress (K := K) hreq hcall [] with hgave | ⟨hreq', hlog, hless⟩
    · exact ⟨1, s.log, List.suffix_refl _, hgave⟩
    · obtain ⟨n, before, hbefore, hgave⟩ := ih _ (hwork ▸ hless) hreq' rfl
      exact ⟨n + 1, before, hlog.trans hbefore, hgave⟩

/-- A call whose waiting time runs out is touched after its return when the crypto task goes on:
its request is still outstanding. -/
theorem Inv.timeout_touched (h : Inv K s) (htimeout : s.TimesOut c) :
    ∃ n, ¬ Untouched (runFrom (PqState.step K) s
      (.waitTimeout c :: List.replicate n (.crypto []))).log := by
  obtain ⟨f, hc, hnever⟩ : ∃ f, s.calls c = some (.waiting f) ∧
      (s.sems f.done).any DoneSem.given = false := by
    revert htimeout
    rw [PqState.TimesOut]
    split
    · rename_i f hc
      exact fun htimeout => ⟨f, hc, htimeout.2⟩
    · exact False.elim
  have hleft : s.step K (.waitTimeout c) = s.finish c f .timeout := by
    rw [PqState.step, PqState.waitTimeout, hc]
    exact if_pos htimeout
  have hreq : f.request c ∈ (s.finish c f .timeout).outstanding := by
    rcases h.waiting c f hc with ⟨-, hin⟩ | ⟨hf, -⟩
    · exact hin
    · rw [hf.sem] at hnever
      cases hnever
  obtain ⟨n, before, hbefore, hgave⟩ := gave_of_outstanding (K := K) (c := c) hreq rfl
  refine ⟨n, fun huntouched => ?_⟩
  rw [runFrom_cons, hleft, hgave] at huntouched
  have hreturn := hbefore.subset (List.mem_cons_self (a := PqEvent.returned c .timeout _))
  have hno := (List.pairwise_cons.1 huntouched).1 _ hreturn c (by simp [PqEvent.isReturn])
  simp [PqEvent.touches] at hno

/-! ### Sample runs -/

/-- A KEM whose outputs are its coins. -/
def sampleKem : Sntrup761 where
  keypair coins := ((coins, coins), 0)
  enc pk coins := ((pk ++ coins, coins), 0)
  dec ct sk := (ct ++ sk, 0)

/-- A call of `pq_crypto_keygen` with 5 s, and the buffers 0 and 1. -/
def sampleFrame : SubmitFrame := ⟨.keygen 0 1, 5000, 0, 0⟩

/-- The crypto task takes a request, executes it, writes two buffers and the result, and gives the
semaphore. -/
def sampleService : List PqLabel := List.replicate 6 (.crypto [7])

/-- Keys that are generated in time. -/
theorem pq_requests_isolated_sample :
    Untouched (runFrom (PqState.step sampleKem) (.boot fun _ => [])
        ([.init true, .call 0 sampleFrame true, .queueSend 0] ++ sampleService ++
          [.semaphoreTake 0])).log ∧
      OwnOutputs sampleKem (runFrom (PqState.step sampleKem) (.boot fun _ => [])
        ([.init true, .call 0 sampleFrame true, .queueSend 0] ++ sampleService ++
          [.semaphoreTake 0])).log :=
  pq_requests_isolated sampleKem (fun _ => []) _ (by decide)

/-- A call whose waiting time runs out while its request is queued. The caller tries again with the
same buffers, and its new frame and semaphore are where the old ones were: the crypto task writes
for the first call and gives its semaphore, and the second call returns success with keys that are
not those of its own request. -/
def lateService : List PqLabel :=
  [.init true, .call 0 sampleFrame true, .queueSend 0, .waitTimeout 0, .call 1 sampleFrame true,
    .queueSend 1] ++ sampleService ++ [.semaphoreTake 1]

/-- A run with a timeout can break both. -/
theorem pq_requests_isolated_counterexample :
    ¬ (∀ (K : Sntrup761) (mem : ℕ → List UInt8) (labels : List PqLabel),
        Untouched (runFrom (PqState.step K) (.boot mem) labels).log) ∧
      ¬ ∀ (K : Sntrup761) (mem : ℕ → List UInt8) (labels : List PqLabel),
        OwnOutputs K (runFrom (PqState.step K) (.boot mem) labels).log := by
  have hlog : (runFrom (PqState.step sampleKem) (.boot fun _ => []) lateService).log =
      [.returned 1 .ok [[7], [7]], .gave 0, .stored 0, .wrote 0 1, .wrote 0 0, .executed 0 [7],
        .submitted 1 .keygen, .returned 0 .timeout [[], []], .submitted 0 .keygen] := by
    decide
  refine ⟨fun h => ?_, fun h => ?_⟩
  · have hrun := h sampleKem (fun _ => []) lateService
    rw [hlog] at hrun
    have hlate := (List.pairwise_cons.1 (List.pairwise_cons.1 hrun).2).1
      (.returned 0 .timeout [[], []]) (by simp) 0 rfl
    cases hlate
  · have hrun := h sampleKem (fun _ => []) lateService
    rw [hlog] at hrun
    obtain ⟨input, coins, -, hexec, -⟩ := hrun _ 1 [[7], [7]] (List.suffix_refl _)
    simp at hexec

end SimpleGo.PqCrypto
