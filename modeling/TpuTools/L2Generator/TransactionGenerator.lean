import TpuTools.Core.LTS
import TpuTools.L2Generator.TransferBatch

/-!
# The transaction generator (`transaction-bench/src/generator/transaction_generator.rs`)

`TransactionGenerator::run` keeps `workers_pull_size` worker tasks in a `JoinSet`. Each is
given the payer index it starts from, generates one batch on a blocking thread and sends
it; the tasks run and finish in any order, and `join_next` takes any finished one. The
clock, the blockhash channel and the receiver of the batches are free.

A task is one step when its batch is generated (or the generation panics) and one when
the batch is sent. Dropping the `JoinSet` aborts its tasks; a generation still running on
its blocking thread then has no one to send its batch.

* `Walk`: the invariant: the payer index the loop holds, and the one each task was given,
  is where a sequential generator would be.
* **`sequential_walk`**: whatever the order of the tasks, transaction `t` of batch `k` takes
  its payers from element `2 n (k B + t)` of the cycle on, and transactions less than
  `L / (2 n)` apart use different positions of the payers list.
* `sent_generated`: what is sent are generated batches, serialized.
-/
namespace TpuTools.Generator
open Ints

/-- mirrors transaction-bench/src/generator/transaction_generator.rs:21 -/
def COMPUTE_BUDGET_INSTRUCTION_CU_COST : Nat := 150

/-- mirrors transaction-bench/src/generator/transaction_generator.rs:22 -/
def SIMPLE_TRANSFER_INSTRUCTION_CU_COST : Nat := 150

/-- mirrors transaction-bench/src/generator/transaction_generator.rs:24-31 -/
inductive TransactionGeneratorError where
  | receiverDropped
  | generateTxBatchFailure
  deriving DecidableEq, Repr

/-- The fields of `TransactionGenerator` but for its channels, and the build.
mirrors transaction-bench/src/generator/transaction_generator.rs:33-41 -/
structure Params where
  payers : List Keypair
  transactionParams : SimpleTransferTxParams
  sendBatchSize : Nat
  runDuration : Option Nat
  workersPullSize : Nat
  /-- overflow checks are compiled in -/
  checks : Bool

/-- `transfer_tx_min_cu_budget`; `none` is an overflow.
mirrors transaction-bench/src/generator/transaction_generator.rs:80-81 -/
def Params.transferTxMinCuBudget (P : Params) : Option Nat :=
  mulAddU32 P.checks COMPUTE_BUDGET_INSTRUCTION_CU_COST SIMPLE_TRANSFER_INSTRUCTION_CU_COST
    (P.transactionParams.numSendInstructionsPerTx % 2 ^ 32)

/-- The update of `index_payer`; `none` is an overflow or an empty payers list.
mirrors transaction-bench/src/generator/transaction_generator.rs:139-141 -/
def Params.nextIndexPayer (P : Params) (indexPayer : Nat) : Option Nat := do
  let perTx ← mulU64 P.checks 2 P.transactionParams.numSendInstructionsPerTx
  let perBatch ← mulU64 P.checks perTx P.sendBatchSize
  if P.payers.length = 0 then none
  else some (saturatingAdd indexPayer perBatch % P.payers.length)

inductive TaskState where
  /-- the blocking generation is queued or running -/
  | generating
  /-- in `send_batch` -/
  | sending (wiredTxBatch : List Bytes)
  | finished
  deriving DecidableEq

/-- A worker task. -/
structure Task where
  /-- ghost: its place in spawn order, from 0 -/
  number : Nat
  indexPayer : Nat
  blockhash : Hash
  state : TaskState

inductive Phase where
  | validating
  /-- at the head of `loop` -/
  | looping
  /-- in the inner `while` -/
  | spawning (blockhash : Hash)
  /-- at `futures.join_next()` -/
  | joining
  /-- the duration is over -/
  | stopping
  | returned (result : Except TransactionGeneratorError Unit)
  | panicked

structure TransactionGenerator where
  phase : Phase
  indexPayer : Nat
  futures : List Task
  /-- the batches the channel accepted -/
  sent : List (List Bytes)
  /-- ghost: how many tasks were spawned -/
  spawned : Nat
  /-- ghost: the generated batches with their task's number -/
  generated : List (Nat × List TransferTx)

def TransactionGenerator.init : TransactionGenerator := ⟨.validating, 0, [], [], 0, []⟩

inductive Label where
  | validate
  | durationElapsed
  | receiverDropped
  | borrowBlockhash (blockhash : Hash)
  | spawn
  | poolFull
  /-- the generation of a task ends; `sample`: the amounts that were chosen -/
  | generate (number : Nat) (sample : List Nat)
  /-- `delivered`: the receiver is still there -/
  | send (number : Nat) (delivered : Bool)
  | joinNext (number : Nat)
  | joinNone

/-- Task `number` goes on to `state`. -/
def setTask (futures : List Task) (number : Nat) (state : TaskState) : List Task :=
  futures.map fun t => if t.number = number then { t with state := state } else t

@[simp] theorem setTask_length (futures : List Task) (number : Nat) (state : TaskState) :
    (setTask futures number state).length = futures.length := List.length_map _

instance (upper count : Nat) (sample : List Nat) : Decidable (IsSample upper count sample) :=
  decidable_of_iff (sample.Nodup ∧ (∀ a ∈ sample, 1 ≤ a ∧ a ≤ upper) ∧
    sample.length = min count upper)
    ⟨fun ⟨h1, h2, h3⟩ => ⟨h1, h2, h3⟩, fun ⟨h1, h2, h3⟩ => ⟨h1, h2, h3⟩⟩

variable (sdk : Sdk) (P : Params)

/-- How many amounts a batch asks for, after a product that may wrap. -/
def Params.count : Nat := P.transactionParams.numSendInstructionsPerTx * P.sendBatchSize % 2 ^ 64

/-- A generation that panics leaves a `JoinError`, and the task ends without a batch.
mirrors transaction-bench/src/generator/transaction_generator.rs:80-148 -/
def step (s : TransactionGenerator) : Label → Option TransactionGenerator
  | .validate =>
    match s.phase, P.transferTxMinCuBudget with
    | .validating, none => some { s with phase := .panicked }
    | .validating, some minCuBudget =>
      if P.transactionParams.transferTxCuBudget < minCuBudget then
        some { s with phase := .returned (.error .generateTxBatchFailure) }
      else some { s with phase := .looping }
    | _, _ => none
  | .durationElapsed =>
    match s.phase, P.runDuration with
    | .looping, some _ => some { s with phase := .stopping }
    | _, _ => none
  | .receiverDropped =>
    match s.phase with
    | .looping => some { s with phase := .returned (.error .receiverDropped), futures := [] }
    | _ => none
  | .borrowBlockhash blockhash =>
    match s.phase with
    | .looping => some { s with phase := .spawning blockhash }
    | _ => none
  | .spawn =>
    match s.phase with
    | .spawning blockhash =>
      if s.futures.length < P.workersPullSize then
        match P.nextIndexPayer s.indexPayer with
        | some indexPayer =>
          some { s with
            futures := s.futures ++ [⟨s.spawned, s.indexPayer, blockhash, .generating⟩]
            indexPayer := indexPayer
            spawned := s.spawned + 1 }
        -- the panic unwinds `run`, which drops the `JoinSet` with the task just spawned
        | none => some { s with phase := .panicked, futures := [] }
      else none
    | _ => none
  | .poolFull =>
    match s.phase with
    | .spawning _ =>
      if s.futures.length < P.workersPullSize then none else some { s with phase := .joining }
    | _ => none
  | .generate number sample =>
    match s.futures.find? (·.number = number) with
    | some ⟨_, indexPayer, blockhash, .generating⟩ =>
      if IsSample P.transactionParams.lamportsToTransfer P.count sample then
        match generateTransferTransactionBatch sdk P.checks P.payers indexPayer blockhash
            P.transactionParams P.sendBatchSize sample with
        | some txs =>
          some { s with
            futures := setTask s.futures number (.sending (wired txs))
            generated := s.generated ++ [(number, txs)] }
        | none => some { s with futures := setTask s.futures number .finished }
      else none
    | _ => none
  | .send number delivered =>
    match s.futures.find? (·.number = number) with
    | some ⟨_, _, _, .sending batch⟩ =>
      some { s with
        futures := setTask s.futures number .finished
        sent := if delivered then s.sent ++ [batch] else s.sent }
    | _ => none
  | .joinNext number =>
    match s.futures.find? (·.number = number) with
    | some ⟨_, _, _, .finished⟩ =>
      match s.phase with
      | .joining =>
        some { s with phase := .looping, futures := s.futures.filter (·.number ≠ number) }
      | .stopping => some { s with futures := s.futures.filter (·.number ≠ number) }
      | _ => none
    | _ => none
  | .joinNone =>
    match s.phase, s.futures with
    | .joining, [] => some { s with phase := .looping }
    | .stopping, [] => some { s with phase := .returned (.ok ()) }
    | _, _ => none

/-- The generator over all schedules of its tasks. -/
def lts : LTS TransactionGenerator Label := .ofFn (· = TransactionGenerator.init) (step sdk P)

variable {sdk P}

/-! ## The moves -/

/-- Every way a step can go. -/
inductive Move (sdk : Sdk) (P : Params) (s : TransactionGenerator) :
    Label → TransactionGenerator → Prop where
  | overflow (hp : s.phase = .validating) (hm : P.transferTxMinCuBudget = none) :
      Move sdk P s .validate { s with phase := .panicked }
  | refuse {minCuBudget : Nat} (hp : s.phase = .validating)
      (hm : P.transferTxMinCuBudget = some minCuBudget)
      (hlt : P.transactionParams.transferTxCuBudget < minCuBudget) :
      Move sdk P s .validate { s with phase := .returned (.error .generateTxBatchFailure) }
  | accept {minCuBudget : Nat} (hp : s.phase = .validating)
      (hm : P.transferTxMinCuBudget = some minCuBudget)
      (hle : minCuBudget ≤ P.transactionParams.transferTxCuBudget) :
      Move sdk P s .validate { s with phase := .looping }
  | stop {duration : Nat} (hp : s.phase = .looping) (hd : P.runDuration = some duration) :
      Move sdk P s .durationElapsed { s with phase := .stopping }
  | dropped (hp : s.phase = .looping) : Move sdk P s .receiverDropped
      { s with phase := .returned (.error .receiverDropped), futures := [] }
  | borrow {blockhash : Hash} (hp : s.phase = .looping) :
      Move sdk P s (.borrowBlockhash blockhash) { s with phase := .spawning blockhash }
  | spawn {blockhash : Hash} {indexPayer : Nat} (hp : s.phase = .spawning blockhash)
      (hroom : s.futures.length < P.workersPullSize)
      (hnext : P.nextIndexPayer s.indexPayer = some indexPayer) :
      Move sdk P s .spawn { s with
        futures := s.futures ++ [⟨s.spawned, s.indexPayer, blockhash, .generating⟩]
        indexPayer := indexPayer
        spawned := s.spawned + 1 }
  | spawnPanic {blockhash : Hash} (hp : s.phase = .spawning blockhash)
      (hroom : s.futures.length < P.workersPullSize)
      (hnext : P.nextIndexPayer s.indexPayer = none) :
      Move sdk P s .spawn { s with phase := .panicked, futures := [] }
  | full {blockhash : Hash} (hp : s.phase = .spawning blockhash)
      (hfull : P.workersPullSize ≤ s.futures.length) :
      Move sdk P s .poolFull { s with phase := .joining }
  | generated {t : Task} {sample : List Nat} {txs : List TransferTx} (ht : t ∈ s.futures)
      (hgen : t.state = .generating)
      (hsample : IsSample P.transactionParams.lamportsToTransfer P.count sample)
      (htxs : generateTransferTransactionBatch sdk P.checks P.payers t.indexPayer t.blockhash
        P.transactionParams P.sendBatchSize sample = some txs) :
      Move sdk P s (.generate t.number sample) { s with
        futures := setTask s.futures t.number (.sending (wired txs))
        generated := s.generated ++ [(t.number, txs)] }
  | generatePanic {t : Task} {sample : List Nat} (ht : t ∈ s.futures)
      (hgen : t.state = .generating)
      (hsample : IsSample P.transactionParams.lamportsToTransfer P.count sample)
      (htxs : generateTransferTransactionBatch sdk P.checks P.payers t.indexPayer t.blockhash
        P.transactionParams P.sendBatchSize sample = none) :
      Move sdk P s (.generate t.number sample)
        { s with futures := setTask s.futures t.number .finished }
  | sent {t : Task} {batch : List Bytes} {delivered : Bool} (ht : t ∈ s.futures)
      (hsend : t.state = .sending batch) :
      Move sdk P s (.send t.number delivered) { s with
        futures := setTask s.futures t.number .finished
        sent := if delivered then s.sent ++ [batch] else s.sent }
  | joined {t : Task} (ht : t ∈ s.futures) (hdone : t.state = .finished)
      (hp : s.phase = .joining) : Move sdk P s (.joinNext t.number)
        { s with phase := .looping, futures := s.futures.filter (·.number ≠ t.number) }
  | drained {t : Task} (ht : t ∈ s.futures) (hdone : t.state = .finished)
      (hp : s.phase = .stopping) : Move sdk P s (.joinNext t.number)
        { s with futures := s.futures.filter (·.number ≠ t.number) }
  | noTask (hp : s.phase = .joining) (hnil : s.futures = []) :
      Move sdk P s .joinNone { s with phase := .looping }
  | ended (hp : s.phase = .stopping) (hnil : s.futures = []) :
      Move sdk P s .joinNone { s with phase := .returned (.ok ()) }

theorem find_task {futures : List Task} {number : Nat} {t : Task}
    (h : futures.find? (·.number = number) = some t) : t ∈ futures ∧ t.number = number :=
  ⟨List.mem_of_find?_eq_some h, by simpa using List.find?_some h⟩

theorem step_validate {s s' : TransactionGenerator} (h : step sdk P s .validate = some s') :
    Move sdk P s .validate s' := by
  simp only [step] at h
  split at h
  · rename_i hp hm
    cases h
    exact .overflow hp hm
  · rename_i minCuBudget hp hm
    split at h
    · rename_i hlt
      cases h
      exact .refuse hp hm hlt
    · rename_i hge
      cases h
      exact .accept hp hm (Nat.not_lt.1 hge)
  · cases h

theorem step_spawn {s s' : TransactionGenerator} (h : step sdk P s .spawn = some s') :
    Move sdk P s .spawn s' := by
  simp only [step] at h
  split at h
  · rename_i blockhash hp
    split at h
    · rename_i hroom
      split at h
      · rename_i indexPayer hnext
        cases h
        exact .spawn hp hroom hnext
      · rename_i hnext
        cases h
        exact .spawnPanic hp hroom hnext
    · cases h
  · cases h

theorem step_generate {s s' : TransactionGenerator} {number : Nat} {sample : List Nat}
    (h : step sdk P s (.generate number sample) = some s') :
    Move sdk P s (.generate number sample) s' := by
  simp only [step] at h
  split at h
  · rename_i k indexPayer blockhash hfind
    obtain ⟨ht, rfl⟩ := find_task hfind
    split at h
    · rename_i hsample
      split at h
      · rename_i txs htxs
        cases h
        exact .generated ht rfl hsample htxs
      · rename_i htxs
        cases h
        exact .generatePanic ht rfl hsample htxs
    · cases h
  · cases h

theorem step_joinNext {s s' : TransactionGenerator} {number : Nat}
    (h : step sdk P s (.joinNext number) = some s') : Move sdk P s (.joinNext number) s' := by
  simp only [step] at h
  split at h
  · rename_i k indexPayer blockhash hfind
    obtain ⟨ht, rfl⟩ := find_task hfind
    split at h
    · rename_i hp
      cases h
      exact .joined ht rfl hp
    · rename_i hp
      cases h
      exact .drained ht rfl hp
    · cases h
  · cases h

theorem step_move {s s' : TransactionGenerator} {l : Label} (h : step sdk P s l = some s') :
    Move sdk P s l s' := by
  cases l with
  | validate => exact step_validate h
  | spawn => exact step_spawn h
  | generate number sample => exact step_generate h
  | joinNext number => exact step_joinNext h
  | durationElapsed =>
    simp only [step] at h
    split at h
    · rename_i hp hd
      cases h
      exact .stop hp hd
    · cases h
  | receiverDropped =>
    simp only [step] at h
    split at h
    · rename_i hp
      cases h
      exact .dropped hp
    · cases h
  | borrowBlockhash blockhash =>
    simp only [step] at h
    split at h
    · rename_i hp
      cases h
      exact .borrow hp
    · cases h
  | poolFull =>
    simp only [step] at h
    split at h
    · rename_i blockhash hp
      split at h
      · cases h
      · rename_i hfull
        cases h
        exact .full hp (Nat.not_lt.1 hfull)
    · cases h
  | send number delivered =>
    simp only [step] at h
    split at h
    · rename_i k indexPayer blockhash batch hfind
      obtain ⟨ht, rfl⟩ := find_task hfind
      cases h
      exact .sent ht rfl
    · cases h
  | joinNone =>
    simp only [step] at h
    split at h
    · rename_i hp hnil
      cases h
      exact .noTask hp hnil
    · rename_i hp hnil
      cases h
      exact .ended hp hnil
    · cases h

/-! ## The invariant -/

/-- How many payers a batch takes. -/
def Params.stride (P : Params) : Nat := 2 * P.transactionParams.numSendInstructionsPerTx * P.sendBatchSize

/-- What the generator relies on: there are payers, a transaction has a transfer, and the
payer index of the next batch fits in `usize`. -/
structure Params.Fits (P : Params) : Prop where
  payers : 1 ≤ P.payers.length
  transfers : 1 ≤ P.transactionParams.numSendInstructionsPerTx
  usize : P.stride + P.payers.length < 2 ^ 64

theorem Params.Fits.payers_ne (h : P.Fits) : P.payers ≠ [] :=
  List.length_pos_iff.1 h.payers

theorem Params.Fits.product_lt (h : P.Fits) :
    P.transactionParams.numSendInstructionsPerTx * P.sendBatchSize < 2 ^ 64 := by
  have h1 : P.stride = 2 * (P.transactionParams.numSendInstructionsPerTx * P.sendBatchSize) :=
    Nat.mul_assoc _ _ _
  have h2 := h.usize
  omega

theorem Params.Fits.count_eq (h : P.Fits) :
    P.count = P.transactionParams.numSendInstructionsPerTx * P.sendBatchSize :=
  Nat.mod_eq_of_lt h.product_lt

/-- A product that fits has factors that fit, or is zero. -/
theorem mulU64_left {checks : Bool} {a b c : Nat} (h : mulU64 checks a b = some c) {m d : Nat}
    (hd : mulU64 checks c m = some d) (hfit : a * b * m < 2 ^ 64) : d = a * b * m := by
  unfold mulU64 at h hd
  split at h
  · cases h
    rw [if_pos hfit] at hd
    cases hd; rfl
  · rename_i hbig
    split at h
    · cases h
    · cases h
      have hm : m = 0 := by
        rcases Nat.eq_zero_or_pos m with hm | hm
        · exact hm
        · have := Nat.le_mul_of_pos_right (a * b) hm
          omega
      subst hm
      simpa using hd.symm

/-- Nothing saturates, so the index moves by the payers of one batch. -/
theorem nextIndexPayer_eq (h : P.Fits) {indexPayer next : Nat} (hi : indexPayer < P.payers.length)
    (hnext : P.nextIndexPayer indexPayer = some next) :
    next = (indexPayer + P.stride) % P.payers.length := by
  have hfit := h.usize
  simp only [Params.nextIndexPayer, Option.bind_eq_bind, Option.bind_eq_some_iff] at hnext
  obtain ⟨perTx, h1, perBatch, h2, h3⟩ := hnext
  have hstride : perBatch = P.stride :=
    mulU64_left h1 h2 (show P.stride < 2 ^ 64 by omega)
  split at h3
  · cases h3
  · rw [hstride, saturatingAdd_of_lt (by omega)] at h3
    cases h3; rfl

/-- `batch` is a generated batch, serialized. -/
def FromGenerated (generated : List (Nat × List TransferTx)) (batch : List Bytes) : Prop :=
  ∃ k txs, (k, txs) ∈ generated ∧ batch = wired txs

/-- The payer index the loop holds and those its tasks were given are where a sequential
generator would be; every batch is generated once, from there. -/
structure Walk (sdk : Sdk) (P : Params) (s : TransactionGenerator) : Prop where
  indexPayer : s.indexPayer = P.stride * s.spawned % P.payers.length
  tasks : ∀ t ∈ s.futures, t.indexPayer = P.stride * t.number % P.payers.length ∧
    t.number < s.spawned
  generating : ∀ t ∈ s.futures, t.state = .generating → t.number ∉ s.generated.map Prod.fst
  once : (s.generated.map Prod.fst).Nodup
  generated : ∀ k txs, (k, txs) ∈ s.generated → k < s.spawned ∧ ∃ blockhash sample,
    IsSample P.transactionParams.lamportsToTransfer P.count sample ∧
    generateTransferTransactionBatch sdk P.checks P.payers (P.stride * k % P.payers.length)
      blockhash P.transactionParams P.sendBatchSize sample = some txs
  sending : ∀ t ∈ s.futures, ∀ batch, t.state = .sending batch →
    FromGenerated s.generated batch
  sent : ∀ batch ∈ s.sent, FromGenerated s.generated batch

theorem Walk.init : Walk sdk P TransactionGenerator.init :=
  ⟨by simp [TransactionGenerator.init], by simp [TransactionGenerator.init],
    by simp [TransactionGenerator.init], by simp [TransactionGenerator.init],
    by simp [TransactionGenerator.init], by simp [TransactionGenerator.init],
    by simp [TransactionGenerator.init]⟩

theorem nodup_snoc {α : Type} {xs : List α} {a : α} (h : xs.Nodup) (ha : a ∉ xs) :
    (xs ++ [a]).Nodup := by
  refine List.nodup_append.2 ⟨h, by simp, ?_⟩
  rintro b hb c hc rfl
  exact ha (List.mem_singleton.1 hc ▸ hb)

/-- Steps that spawn, generate and send nothing, and at most drop tasks. -/
theorem Walk.sublist {s s' : TransactionGenerator} (h : Walk sdk P s)
    (hf : s'.futures.Sublist s.futures) (hi : s'.indexPayer = s.indexPayer)
    (hn : s'.spawned = s.spawned) (hg : s'.generated = s.generated) (hs : s'.sent = s.sent) :
    Walk sdk P s' := by
  obtain ⟨h1, h2, h4, h5, h6, h7, h8⟩ := h
  refine ⟨?_, ?_, ?_, ?_, ?_, ?_, ?_⟩
  · rw [hi, hn]; exact h1
  · rw [hn]; exact fun t ht => h2 t (hf.subset ht)
  · rw [hg]; exact fun t ht => h4 t (hf.subset ht)
  · rw [hg]; exact h5
  · rw [hg, hn]; exact h6
  · rw [hg]; exact fun t ht => h7 t (hf.subset ht)
  · rw [hg, hs]; exact h8

theorem mem_setTask {futures : List Task} {number : Nat} {state : TaskState} {t : Task}
    (h : t ∈ setTask futures number state) :
    ∃ t0 ∈ futures, t.number = t0.number ∧ t.indexPayer = t0.indexPayer ∧
      (t.state = t0.state ∧ t0.number ≠ number ∨ t.state = state) := by
  simp only [setTask, List.mem_map] at h
  obtain ⟨t0, h0, rfl⟩ := h
  refine ⟨t0, h0, ?_⟩
  split
  · exact ⟨rfl, rfl, .inr rfl⟩
  · rename_i hne
    exact ⟨rfl, rfl, .inl ⟨rfl, hne⟩⟩

@[simp] theorem map_number_setTask (futures : List Task) (number : Nat) (state : TaskState) :
    (setTask futures number state).map Task.number = futures.map Task.number := by
  simp only [setTask, List.map_map]
  refine List.map_congr_left fun t _ => ?_
  simp only [Function.comp]
  split <;> rfl

/-- A task ends; what it had to send may have been sent. -/
theorem Walk.finish {s : TransactionGenerator} {number : Nat} {sent : List (List Bytes)}
    (h : Walk sdk P s)
    (hsent : ∀ batch ∈ sent, batch ∈ s.sent ∨ ∃ t ∈ s.futures, t.state = .sending batch) :
    Walk sdk P { s with futures := setTask s.futures number .finished, sent := sent } := by
  obtain ⟨h1, h2, h4, h5, h6, h7, h8⟩ := h
  refine ⟨h1, ?_, ?_, h5, h6, ?_, ?_⟩
  · intro t ht
    obtain ⟨t0, h0, e1, e2, -⟩ := mem_setTask ht
    rw [e1, e2]; exact h2 t0 h0
  · intro t ht hgen
    obtain ⟨t0, h0, e1, -, ⟨e3, -⟩ | e3⟩ := mem_setTask ht
    · rw [e1]; exact h4 t0 h0 (e3 ▸ hgen)
    · rw [e3] at hgen; cases hgen
  · intro t ht batch hb
    obtain ⟨t0, h0, -, -, ⟨e3, -⟩ | e3⟩ := mem_setTask ht
    · exact h7 t0 h0 batch (e3 ▸ hb)
    · rw [e3] at hb; cases hb
  · intro batch hb
    rcases hsent batch hb with hb | ⟨t, ht, hb⟩
    · exact h8 batch hb
    · exact h7 t ht batch hb

/-- A new task gets the index the loop holds. -/
theorem Walk.spawn {s : TransactionGenerator} {blockhash : Hash} {next : Nat} (hP : P.Fits)
    (h : Walk sdk P s) (hnext : P.nextIndexPayer s.indexPayer = some next) :
    Walk sdk P { s with
      futures := s.futures ++ [⟨s.spawned, s.indexPayer, blockhash, .generating⟩]
      indexPayer := next
      spawned := s.spawned + 1 } := by
  obtain ⟨h1, h2, h4, h5, h6, h7, h8⟩ := h
  have hlt : s.indexPayer < P.payers.length := h1 ▸ Nat.mod_lt _ hP.payers
  refine ⟨?_, ?_, ?_, h5, ?_, ?_, h8⟩
  · show next = P.stride * (s.spawned + 1) % P.payers.length
    rw [nextIndexPayer_eq hP hlt hnext, h1, Nat.mod_add_mod, Nat.mul_succ]
  · intro t ht
    rcases List.mem_append.1 ht with ht | ht
    · exact ⟨(h2 t ht).1, Nat.lt_succ_of_lt (h2 t ht).2⟩
    · cases List.mem_singleton.1 ht
      exact ⟨h1, Nat.lt_succ_self _⟩
  · intro t ht hgen
    rcases List.mem_append.1 ht with ht | ht
    · exact h4 t ht hgen
    · cases List.mem_singleton.1 ht
      -- only spawned tasks have generated
      intro hmem
      obtain ⟨⟨k, txs⟩, hk, he⟩ := List.mem_map.1 hmem
      exact absurd he (Nat.ne_of_lt (h6 k txs hk).1)
  · exact fun k txs hk => ⟨Nat.lt_succ_of_lt (h6 k txs hk).1, (h6 k txs hk).2⟩
  · intro t ht batch hb
    rcases List.mem_append.1 ht with ht | ht
    · exact h7 t ht batch hb
    · cases List.mem_singleton.1 ht
      cases hb

theorem FromGenerated.mono {generated : List (Nat × List TransferTx)} {batch : List Bytes}
    (more : List (Nat × List TransferTx)) (h : FromGenerated generated batch) :
    FromGenerated (generated ++ more) batch := by
  obtain ⟨k, txs, hk, he⟩ := h
  exact ⟨k, txs, List.mem_append_left _ hk, he⟩

/-- A task generates its batch from the index it was given. -/
theorem Walk.generate {s : TransactionGenerator} {t : Task} {sample : List Nat}
    {txs : List TransferTx} (h : Walk sdk P s) (ht : t ∈ s.futures) (hgen : t.state = .generating)
    (hsample : IsSample P.transactionParams.lamportsToTransfer P.count sample)
    (htxs : generateTransferTransactionBatch sdk P.checks P.payers t.indexPayer t.blockhash
      P.transactionParams P.sendBatchSize sample = some txs) :
    Walk sdk P { s with
      futures := setTask s.futures t.number (.sending (wired txs))
      generated := s.generated ++ [(t.number, txs)] } := by
  obtain ⟨h1, h2, h4, h5, h6, h7, h8⟩ := h
  refine ⟨h1, ?_, ?_, ?_, ?_, ?_, ?_⟩
  · intro u hu
    obtain ⟨t0, h0, e1, e2, -⟩ := mem_setTask hu
    rw [e1, e2]; exact h2 t0 h0
  · intro u hu hugen
    obtain ⟨t0, h0, e1, -, ⟨e3, e4⟩ | e3⟩ := mem_setTask hu
    · simp only [List.map_append, List.map_cons, List.map_nil, List.mem_append,
        List.mem_singleton, e1]
      rintro (hmem | hmem)
      · exact h4 t0 h0 (e3 ▸ hugen) hmem
      · exact e4 hmem
    · rw [e3] at hugen
      cases hugen
  · simp only [List.map_append, List.map_cons, List.map_nil]
    exact nodup_snoc h5 (h4 t ht hgen)
  · intro k txs' hk
    rcases List.mem_append.1 hk with hk | hk
    · exact h6 k txs' hk
    · cases List.mem_singleton.1 hk
      refine ⟨(h2 t ht).2, t.blockhash, sample, hsample, ?_⟩
      rw [← (h2 t ht).1]
      exact htxs
  · intro u hu batch hb
    obtain ⟨t0, h0, -, -, ⟨e3, -⟩ | e3⟩ := mem_setTask hu
    · exact (h7 t0 h0 batch (e3 ▸ hb)).mono _
    · rw [e3] at hb
      cases hb
      exact ⟨t.number, txs, List.mem_append_right _ (List.mem_singleton.2 rfl), rfl⟩
  · exact fun batch hb => (h8 batch hb).mono _

theorem walk_step (hP : P.Fits) {s s' : TransactionGenerator} {l : Label} (h : Walk sdk P s)
    (hs : step sdk P s l = some s') : Walk sdk P s' := by
  cases step_move hs with
  | spawn _ _ hnext => exact h.spawn hP hnext
  | generated ht hgen hsample htxs => exact h.generate ht hgen hsample htxs
  | generatePanic _ _ _ _ => exact h.finish fun batch hb => .inl hb
  | @sent t batch delivered ht hsend =>
    refine h.finish fun b hb => ?_
    cases delivered with
    | false => exact .inl hb
    | true =>
      rcases List.mem_append.1 hb with hb | hb
      · exact .inl hb
      · rw [List.mem_singleton.1 hb]
        exact .inr ⟨t, ht, hsend⟩
  | dropped _ => exact h.sublist (List.nil_sublist _) rfl rfl rfl rfl
  | spawnPanic _ _ _ => exact h.sublist (List.nil_sublist _) rfl rfl rfl rfl
  | joined _ _ _ => exact h.sublist List.filter_sublist rfl rfl rfl rfl
  | drained _ _ _ => exact h.sublist List.filter_sublist rfl rfl rfl rfl
  | _ => exact h.sublist (.refl _) rfl rfl rfl rfl

theorem walk_reachable (hP : P.Fits) {s : TransactionGenerator} (h : (lts sdk P).Reachable s) :
    Walk sdk P s := by
  refine LTS.Inductive.reachable (P := Walk sdk P) ⟨?_, ?_⟩ s h
  · rintro s rfl; exact Walk.init
  · exact fun s l s' hw hs => walk_step hP hw hs

/-! ## The walk over the payers -/

/-- The batches walk the payers like one sequential generator: transaction `t` of batch `k`
is number `k B + t`. -/
structure Sequential (sdk : Sdk) (P : Params) (s : TransactionGenerator) : Prop where
  /-- no batch is generated twice -/
  once : (s.generated.map Prod.fst).Nodup
  batches : ∀ k txs, (k, txs) ∈ s.generated → txs.length = P.sendBatchSize ∧
    ∀ t tx, txs[t]? = some tx →
      Walks sdk P.payers P.transactionParams.numSendInstructionsPerTx
        (2 * P.transactionParams.numSendInstructionsPerTx * (k * P.sendBatchSize + t)) tx
  /-- of `L / (2 n)` transactions in a row, no two places have the same position -/
  disjoint : ∀ (k₁ : Nat) (txs₁ : List TransferTx) (t₁ : Nat) (tx₁ : TransferTx)
    (k₂ : Nat) (txs₂ : List TransferTx) (t₂ : Nat) (tx₂ : TransferTx),
    (k₁, txs₁) ∈ s.generated → txs₁[t₁]? = some tx₁ →
    (k₂, txs₂) ∈ s.generated → txs₂[t₂]? = some tx₂ →
    k₁ * P.sendBatchSize + t₁ ≤ k₂ * P.sendBatchSize + t₂ →
    k₂ * P.sendBatchSize + t₂ < k₁ * P.sendBatchSize + t₁ +
      P.payers.length / (2 * P.transactionParams.numSendInstructionsPerTx) →
    ∀ (j₁ j₂ position : Nat), tx₁.used[j₁]? = some position → tx₂.used[j₂]? = some position →
      k₁ = k₂ ∧ t₁ = t₂ ∧ j₁ = j₂

theorem Walk.batches (hP : P.Fits) {s : TransactionGenerator} (h : Walk sdk P s) {k : Nat}
    {txs : List TransferTx} (hk : (k, txs) ∈ s.generated) : txs.length = P.sendBatchSize ∧
    ∀ t tx, txs[t]? = some tx → Walks sdk P.payers P.transactionParams.numSendInstructionsPerTx
      (2 * P.transactionParams.numSendInstructionsPerTx * (k * P.sendBatchSize + t)) tx := by
  obtain ⟨-, blockhash, sample, hsample, htxs⟩ := h.generated k txs hk
  rw [hP.count_eq] at hsample
  obtain ⟨hlen, hw⟩ := generate_spec hP.payers_ne hP.transfers hP.product_lt hsample htxs
  refine ⟨hlen, fun t tx ht => (hw t tx ht).of_mod ?_⟩
  rw [Nat.mod_add_mod, Params.stride, Nat.mul_add, Nat.mul_comm k, Nat.mul_assoc _ _ k]

theorem Walks.position {n g : Nat} {payers : List Keypair} {tx : TransferTx}
    (h : Walks sdk payers n (2 * n * g) tx) {j position : Nat} (hj : tx.used[j]? = some position) :
    j < 2 * n ∧ position = (2 * n * g + j) % payers.length := by
  have hspan : tx.used = Cycle.span payers.length (2 * n) g := h.used
  rw [hspan] at hj
  have hlt : j < 2 * n := by
    have := (List.getElem?_eq_some_iff.1 hj).1
    simpa using this
  rw [Cycle.getElem?_span hlt] at hj
  exact ⟨hlt, (Option.some.inj hj).symm⟩

/-- Number `k B + t` with `t < B` determines the batch and the transaction. -/
theorem number_inj {B k₁ k₂ t₁ t₂ : Nat} (h₁ : t₁ < B) (h₂ : t₂ < B)
    (h : k₁ * B + t₁ = k₂ * B + t₂) : k₁ = k₂ ∧ t₁ = t₂ := by
  have hB : 0 < B := by omega
  have hk : k₁ = k₂ := by
    have hdiv := congrArg (· / B) h
    simpa only [Nat.mul_comm _ B, Nat.mul_add_div hB, Nat.div_eq_of_lt h₁, Nat.div_eq_of_lt h₂,
      Nat.add_zero] using hdiv
  subst hk
  exact ⟨rfl, by omega⟩

/-- **Batches generated in parallel walk the payers like one sequential generator.** -/
theorem sequential_walk (hP : P.Fits) (s : TransactionGenerator) (hs : (lts sdk P).Reachable s) :
    Sequential sdk P s := by
  have hW := walk_reachable hP hs
  refine ⟨hW.once, fun k txs hk => hW.batches hP hk, ?_⟩
  intro k₁ txs₁ t₁ tx₁ k₂ txs₂ t₂ tx₂ hk₁ ht₁ hk₂ ht₂ hle hlt j₁ j₂ position hj₁ hj₂
  obtain ⟨hlen₁, hw₁⟩ := hW.batches hP hk₁
  obtain ⟨hlen₂, hw₂⟩ := hW.batches hP hk₂
  obtain ⟨hlt₁, hpos₁⟩ := (hw₁ t₁ tx₁ ht₁).position hj₁
  obtain ⟨hlt₂, hpos₂⟩ := (hw₂ t₂ tx₂ ht₂).position hj₂
  obtain ⟨hg, hj⟩ := Cycle.span_inj hle hlt hlt₁ hlt₂ (hpos₁ ▸ hpos₂)
  have hB₁ : t₁ < P.sendBatchSize := hlen₁ ▸ (List.getElem?_eq_some_iff.1 ht₁).1
  have hB₂ : t₂ < P.sendBatchSize := hlen₂ ▸ (List.getElem?_eq_some_iff.1 ht₂).1
  obtain ⟨hk, ht⟩ := number_inj hB₁ hB₂ hg
  exact ⟨hk, ht, hj⟩

/-- What is sent are generated batches, serialized. -/
theorem sent_generated (hP : P.Fits) {s : TransactionGenerator} (hs : (lts sdk P).Reachable s)
    {batch : List Bytes} (hb : batch ∈ s.sent) :
    ∃ k txs, (k, txs) ∈ s.generated ∧ batch = wired txs :=
  (walk_reachable hP hs).sent batch hb

/-- Three payers, batches of two one-transfer transactions and two workers. -/
def twoWorkers : Params where
  payers := [⟨⟨List.replicate 32 1, rfl⟩⟩, ⟨⟨List.replicate 32 2, rfl⟩⟩,
    ⟨⟨List.replicate 32 3, rfl⟩⟩]
  transactionParams := ⟨513, 600, 1⟩
  sendBatchSize := 2
  runDuration := none
  workersPullSize := 2
  checks := true

/-- The second worker is faster than the first. -/
theorem sequential_walk_outOfOrder : ∃ s, (lts Sender.plainSdk twoWorkers).Reachable s ∧
    s.generated.map Prod.fst = [1, 0] ∧ Sequential Sender.plainSdk twoWorkers s := by
  obtain ⟨s, hs, hv⟩ := @LTS.reachable_of_view _ _ _ (· = TransactionGenerator.init)
    (step Sender.plainSdk twoWorkers) _ rfl
    [.validate, .borrowBlockhash Sender.plainHash, .spawn, .spawn, .poolFull,
      .generate 1 [5, 6], .send 1 true, .generate 0 [7, 1], .joinNext 1]
    (fun s => s.generated.map Prod.fst) [1, 0] (by decide +kernel)
  exact ⟨s, hs, hv, sequential_walk ⟨by decide, by decide, by decide⟩ s hs⟩

end TpuTools.Generator
