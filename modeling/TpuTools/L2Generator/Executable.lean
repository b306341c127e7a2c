import TpuTools.L2Generator.TransactionGenerator

/-!
# Which parameters can be executed (`transaction-bench/src/generator`)

`TransactionGenerator::run` checks the CU budget before its loop. What can still panic later:
the update of the payer index, the assertion on the number of amounts, the `unwrap`s on
exhausted iterators, and in the SDK the signing (`new_signed_with_payer`) and serializing of a
transaction.

* `generate_isSome_iff`: on which parameters a batch is generated.
* `nextIndexPayer_isSome_iff`: and when the index is updated.
* `indexed_reachable`, `spawning_batch`: from which indices batches are generated.
* **`no_panic_iff`**: validated parameters run without a panic exactly when they are
  `Executable`.
* `Params.Runnable.transfers_lt`: with an SDK that signs for fewer than 256 signers, a transaction
  has fewer than 256 transfers.
-/
namespace TpuTools.Generator
open Ints

/-! ## What a batch consumes -/

section Consumes

variable {sdk : Sdk} {blockhash : Hash}

theorem nextTransfer_takes {b b' : Builder} {sender : Keypair}
    (h : nextTransfer sdk b = some (sender, b')) :
    b.lamports.length = b'.lamports.length + 1 := by
  simp only [nextTransfer, Option.bind_eq_bind, Option.bind_eq_some_iff] at h
  obtain ⟨⟨_, payer⟩, -, ⟨_, payer'⟩, -, h⟩ := h
  cases hl : b.lamports with
  | nil =>
    rw [hl] at h
    cases h
  | cons amount lamports =>
    rw [hl] at h
    cases h
    rfl

theorem transfers_take {b : Builder} :
    ∀ {k : Nat} {b' : Builder}, transfers sdk k b = some b' →
      b.lamports.length = b'.lamports.length + k
  | 0, b', h => by cases h; rfl
  | k + 1, b', h => by
    simp only [transfers, Option.bind_eq_some_iff, Option.map_eq_some_iff] at h
    obtain ⟨b1, h1, ⟨sender, b2⟩, h2, rfl⟩ := h
    have hlast := nextTransfer_takes h2
    rw [transfers_take h1, hlast, Nat.add_right_comm]
    rfl

/-- A transaction takes an amount for its first transfer, even with no transfer asked for. -/
theorem createTransfers_takes {n budget : Nat} {b b' : Builder} {tx : TransferTx}
    (h : createTransfers sdk blockhash n budget b = some (tx, b')) :
    b.lamports.length = b'.lamports.length + (n - 1 + 1) := by
  simp only [createTransfers, Option.bind_eq_bind, Option.bind_eq_some_iff, Option.pure_def,
    Option.some.injEq, Prod.mk.injEq] at h
  obtain ⟨⟨sender, b1⟩, h1, b2, h2, tx', -, wire, -, -, rfl⟩ := h
  have hfirst := nextTransfer_takes h1
  have hrest := transfers_take h2
  simp only at hfirst hrest
  omega

theorem batchLoop_takes {params : SimpleTransferTxParams} {payer : Cycle Keypair}
    {lamports : List Nat} : ∀ {B : Nat} {txs : List TransferTx} {payer' : Cycle Keypair}
      {lamports' : List Nat},
      batchLoop sdk blockhash params B (payer, lamports) = some (txs, payer', lamports') →
        lamports.length = lamports'.length + (params.numSendInstructionsPerTx - 1 + 1) * B
  | 0, txs, payer', lamports', h => by cases h; rfl
  | B + 1, txs, payer', lamports', h => by
    simp only [batchLoop, Option.bind_eq_bind, Option.bind_eq_some_iff, Option.pure_def,
      Option.some.injEq, Prod.mk.injEq] at h
    obtain ⟨⟨txs1, payer1, lamports1⟩, h1, ⟨tx, b⟩, h2, -, -, rfl⟩ := h
    have hbefore := batchLoop_takes h1
    have hlast := createTransfers_takes h2
    simp only at hbefore hlast ⊢
    rw [Nat.mul_succ]
    omega

/-- Without payers there is no first transfer. -/
theorem batchLoop_nil {params : SimpleTransferTxParams} {lamports : List Nat} :
    ∀ B, batchLoop sdk blockhash params (B + 1) (⟨[], []⟩, lamports) = none
  | 0 => by
    simp [batchLoop, createTransfers, nextTransfer, Cycle.next]
  | B + 1 => by
    rw [batchLoop, batchLoop_nil B]
    rfl

end Consumes

theorem skip_nil (n : Nat) : (Cycle.ofList ([] : List Keypair)).skip n = ⟨[], []⟩ := by
  cases n <;> rfl

/-- A batch is generated when there are payers, a transaction has a transfer, the amounts
suffice, and the SDK takes the transactions. -/
theorem generate_isSome_iff (sdk : Sdk) (P : Params) (hB : 1 ≤ P.sendBatchSize)
    (hlamports : P.transactionParams.lamportsToTransfer < 2 ^ 64) (payerIndex : Nat)
    (blockhash : Hash) {sample : List Nat}
    (hs : IsSample P.transactionParams.lamportsToTransfer P.count sample) :
    (generateTransferTransactionBatch sdk P.checks P.payers payerIndex blockhash
        P.transactionParams P.sendBatchSize sample).isSome = true ↔
      P.payers ≠ [] ∧ 1 ≤ P.transactionParams.numSendInstructionsPerTx ∧
        P.transactionParams.numSendInstructionsPerTx * P.sendBatchSize ≤
          P.transactionParams.lamportsToTransfer ∧
        TakesBatch sdk P.payers blockhash P.transactionParams payerIndex sample
          P.sendBatchSize := by
  constructor
  · intro hsome
    obtain ⟨txs, h⟩ := Option.isSome_iff_exists.1 hsome
    simp only [generateTransferTransactionBatch, Option.bind_eq_bind, Option.bind_eq_some_iff] at h
    obtain ⟨count, -, lamports, hl, ⟨txs', payer', lamports'⟩, hloop, -⟩ := h
    obtain rfl : sample = lamports := by
      unfold uniqueRandomNumbers at hl
      split at hl
      · exact Option.some.inj hl
      · cases hl
    have htakes := batchLoop_takes hloop
    have hcount : P.count ≤ P.transactionParams.numSendInstructionsPerTx * P.sendBatchSize :=
      Nat.mod_le _ _
    have hlen := hs.length
    have hne : P.payers ≠ [] := by
      intro hnil
      rw [hnil, skip_nil, show P.sendBatchSize = P.sendBatchSize - 1 + 1 by omega,
        batchLoop_nil] at hloop
      cases hloop
    have hn : 1 ≤ P.transactionParams.numSendInstructionsPerTx := by
      -- with no transfer asked for no amount is drawn, but one is taken
      by_contra hzero
      have hn : P.transactionParams.numSendInstructionsPerTx = 0 := by omega
      rw [hn] at htakes hcount
      omega
    have hle : P.transactionParams.numSendInstructionsPerTx * P.sendBatchSize ≤
        P.transactionParams.lamportsToTransfer := by
      rw [Nat.sub_add_cancel hn] at htakes
      omega
    have hfit := Nat.lt_of_le_of_lt hle hlamports
    rw [Params.count, Nat.mod_eq_of_lt hfit] at hs
    exact ⟨hne, hn, (generate_isSome hne hn hfit hs).1 hsome⟩
  · rintro ⟨hne, hn, hle, htakes⟩
    have hfit := Nat.lt_of_le_of_lt hle hlamports
    rw [Params.count, Nat.mod_eq_of_lt hfit] at hs
    exact (generate_isSome hne hn hfit hs).2 ⟨hle, htakes⟩

/-- Two products in a row overflow exactly when the last one does. -/
theorem mulU64_mulU64_isSome {checks : Bool} {a b m : Nat} (hm : 1 ≤ m) :
    ((mulU64 checks a b).bind (mulU64 checks · m)).isSome = true ↔
      (checks = true → a * b * m < 2 ^ 64) := by
  cases checks with
  | false => simp
  | true =>
    have hle : a * b ≤ a * b * m := Nat.le_mul_of_pos_right _ hm
    unfold mulU64
    rcases Nat.lt_or_ge (a * b) (2 ^ 64) with hfit | hbig
    · rw [if_pos hfit, Option.bind_some]
      split
      · rename_i hlt
        exact iff_of_true rfl fun _ => hlt
      · rename_i hge
        exact iff_of_false Bool.false_ne_true fun h => hge (h rfl)
    · rw [if_neg (Nat.not_lt.2 hbig), if_pos rfl]
      refine iff_of_false Bool.false_ne_true fun h => ?_
      have hlt := h rfl
      omega

theorem nextIndexPayer_isSome_iff (P : Params) (hB : 1 ≤ P.sendBatchSize) (indexPayer : Nat) :
    (P.nextIndexPayer indexPayer).isSome = true ↔
      P.payers ≠ [] ∧ (P.checks = true → P.stride < 2 ^ 64) := by
  have hnext : P.nextIndexPayer indexPayer =
      ((mulU64 P.checks 2 P.transactionParams.numSendInstructionsPerTx).bind
        (mulU64 P.checks · P.sendBatchSize)).bind fun perBatch =>
          if P.payers.length = 0 then none
          else some (saturatingAdd indexPayer perBatch % P.payers.length) := by
    rw [Option.bind_assoc]
    rfl
  rw [hnext, Option.isSome_bind, Params.stride, ← mulU64_mulU64_isSome hB]
  rcases Decidable.em (P.payers = []) with hnil | hne
  · simp [hnil]
  · have hlen : P.payers.length ≠ 0 := fun h => hne (List.length_eq_zero_iff.1 h)
    simp [hne, hlen]

/-! ## Runs without a panic -/

/-- What the command line admits; nothing is asked of the other parameters. -/
structure Params.Admitted (P : Params) : Prop where
  lamports : 513 ≤ P.transactionParams.lamportsToTransfer ∧
    P.transactionParams.lamportsToTransfer < 2 ^ 64
  batch : 1 ≤ P.sendBatchSize

/-- The CU budget passes the check of `run`. -/
def Params.Validated (P : Params) : Prop := ∃ minCuBudget,
  P.transferTxMinCuBudget = some minCuBudget ∧
    minCuBudget ≤ P.transactionParams.transferTxCuBudget

/-- Where batch `k` starts when the batches before it were spawned; `none` if the update of the
index panics before. -/
def Params.batchIndex (P : Params) : Nat → Option Nat
  | 0 => some 0
  | k + 1 => (P.batchIndex k).bind P.nextIndexPayer

/-- There are payers, a transaction has a transfer, there are enough different amounts for a
batch, a checked build can count the payers of a batch, and the SDK takes the transactions of
every batch, whatever blockhash and amounts they have. -/
structure Params.Runnable (P : Params) (sdk : Sdk) : Prop where
  payers : P.payers ≠ []
  transfers : 1 ≤ P.transactionParams.numSendInstructionsPerTx
  amounts : P.transactionParams.numSendInstructionsPerTx * P.sendBatchSize ≤
    P.transactionParams.lamportsToTransfer
  index : P.checks = true → P.stride < 2 ^ 64
  takes : ∀ k indexPayer, P.batchIndex k = some indexPayer → ∀ blockhash sample,
    IsSample P.transactionParams.lamportsToTransfer P.count sample →
    TakesBatch sdk P.payers blockhash P.transactionParams indexPayer sample P.sendBatchSize

/-- No batch is ever spawned, or every batch can be generated. -/
def Params.Executable (P : Params) (sdk : Sdk) : Prop :=
  P.workersPullSize = 0 ∨ P.runDuration = some 0 ∨ P.Runnable sdk

/-- At the head of the loop a zero duration is over. -/
def Timely (P : Params) (_ : TransactionGenerator) : Label → Prop
  | .receiverDropped | .borrowBlockhash _ => P.runDuration ≠ some 0
  | _ => True

/-- Neither the loop panics nor the generation of a batch, whatever amounts are chosen. -/
structure NoPanic (sdk : Sdk) (P : Params) (s : TransactionGenerator) : Prop where
  loop : s.phase ≠ .panicked
  tasks : ∀ t ∈ s.futures, t.state = .generating → ∀ sample,
    IsSample P.transactionParams.lamportsToTransfer P.count sample →
    (generateTransferTransactionBatch sdk P.checks P.payers t.indexPayer t.blockhash
      P.transactionParams P.sendBatchSize sample).isSome = true

/-- In no run anything panics. -/
def PanicFree (sdk : Sdk) (P : Params) : Prop :=
  ∀ s, ((lts sdk P).guard (Timely P)).Reachable s → NoPanic sdk P s

/-- The first amounts of the range. -/
theorem isSample_range' (upper count : Nat) :
    IsSample upper count (List.range' 1 (min count upper)) := by
  refine ⟨List.nodup_range', ?_, by simp⟩
  intro a ha
  rw [List.mem_range'_1] at ha
  omega

/-- The tasks, and the next one, start where batches start. -/
structure Indexed (P : Params) (s : TransactionGenerator) : Prop where
  next : P.batchIndex s.spawned = some s.indexPayer
  tasks : ∀ t ∈ s.futures, P.batchIndex t.number = some t.indexPayer

/-- What the runs of executable parameters keep. -/
structure Fine (sdk : Sdk) (P : Params) (s : TransactionGenerator) : Prop where
  loop : s.phase ≠ .panicked
  idle : ¬ P.Runnable sdk → s.futures = []
  timeLeft : P.runDuration = some 0 → ∀ blockhash, s.phase ≠ .spawning blockhash

section Runs

variable {sdk : Sdk} {P : Params} {s s' : TransactionGenerator} {l : Label}

theorem Indexed.setTask {sent : List (List Bytes)} {generated : List (Nat × List TransferTx)}
    (hI : Indexed P s) (number : Nat) (state : TaskState) : Indexed P { s with
      futures := setTask s.futures number state, sent := sent, generated := generated } := by
  refine ⟨hI.next, fun t ht => ?_⟩
  obtain ⟨t0, h0, hnumber, hindex, -⟩ := mem_setTask ht
  rw [hnumber, hindex]
  exact hI.tasks t0 h0

theorem indexed_step (hI : Indexed P s) (h : step sdk P s l = some s') : Indexed P s' := by
  cases step_move h with
  | @spawn blockhash indexPayer _ _ hnext =>
    refine ⟨?_, fun t ht => ?_⟩
    · show (P.batchIndex s.spawned).bind P.nextIndexPayer = some indexPayer
      rw [hI.next]
      exact hnext
    · rcases List.mem_append.1 ht with ht | ht
      · exact hI.tasks t ht
      · rw [List.mem_singleton.1 ht]
        exact hI.next
  | generated | generatePanic | sent => exact hI.setTask _ _
  | dropped | spawnPanic => exact ⟨hI.next, fun t ht => by cases ht⟩
  | joined | drained => exact ⟨hI.next, fun t ht => hI.tasks t (List.mem_of_mem_filter ht)⟩
  | overflow | refuse | accept | stop | borrow | full | noTask | ended =>
    exact ⟨hI.next, hI.tasks⟩

theorem indexed_reachable (h : (lts sdk P).Reachable s) : Indexed P s := by
  refine LTS.Inductive.reachable (P := Indexed P) ⟨?_, ?_⟩ s h
  · rintro s rfl
    exact ⟨rfl, fun t ht => by cases ht⟩
  · exact fun s l s' hI hs => indexed_step hI hs

/-- Every task of runnable parameters gets its batch. -/
theorem Params.Runnable.generates (hrun : P.Runnable sdk) (hadm : P.Admitted) (hI : Indexed P s)
    {t : Task} (ht : t ∈ s.futures) {sample : List Nat}
    (hsample : IsSample P.transactionParams.lamportsToTransfer P.count sample) :
    (generateTransferTransactionBatch sdk P.checks P.payers t.indexPayer t.blockhash
      P.transactionParams P.sendBatchSize sample).isSome = true :=
  (generate_isSome_iff sdk P hadm.batch hadm.lamports.2 t.indexPayer t.blockhash hsample).2
    ⟨hrun.payers, hrun.transfers, hrun.amounts,
      hrun.takes _ _ (hI.tasks t ht) t.blockhash sample hsample⟩

theorem Params.Runnable.updates (hrun : P.Runnable sdk) (hadm : P.Admitted) (indexPayer : Nat) :
    (P.nextIndexPayer indexPayer).isSome = true :=
  (nextIndexPayer_isSome_iff P hadm.batch indexPayer).2 ⟨hrun.payers, hrun.index⟩

theorem fine_step (hadm : P.Admitted) (hval : P.Validated) (hexec : P.Executable sdk)
    (hF : Fine sdk P s) (htime : Timely P s l) (h : step sdk P s l = some s') :
    Fine sdk P s' := by
  obtain ⟨hloop, hidle, hover⟩ := hF
  cases step_move h with
  | overflow _ hm =>
    obtain ⟨minCuBudget, hmin, -⟩ := hval
    rw [hm] at hmin
    cases hmin
  | spawn hp hroom hnext =>
    refine ⟨by simp [hp], fun hnot => ?_, fun hzero => hover hzero⟩
    rcases hexec with hpull | hzero | hrun
    · omega
    · exact absurd hp (hover hzero _)
    · exact absurd hrun hnot
  | spawnPanic hp hroom hnext =>
    rcases hexec with hpull | hzero | hrun
    · omega
    · exact absurd hp (hover hzero _)
    · have hsome := hrun.updates hadm s.indexPayer
      rw [hnext] at hsome
      cases hsome
  | borrow hp =>
    exact ⟨by simp, hidle, fun hzero => absurd hzero htime⟩
  | dropped _ => exact ⟨by simp, fun _ => rfl, by simp⟩
  | generated ht _ _ _ =>
    refine ⟨hloop, fun hnot => ?_, hover⟩
    rw [hidle hnot] at ht
    cases ht
  | generatePanic ht _ _ _ =>
    refine ⟨hloop, fun hnot => ?_, hover⟩
    rw [hidle hnot] at ht
    cases ht
  | sent ht _ =>
    refine ⟨hloop, fun hnot => ?_, hover⟩
    rw [hidle hnot] at ht
    cases ht
  | joined ht _ _ => exact ⟨by simp, fun hnot => by simp [hidle hnot], by simp⟩
  | drained ht _ hp => exact ⟨hloop, fun hnot => by simp [hidle hnot], hover⟩
  | refuse _ _ _ | accept _ _ _ | stop _ _ | full _ _ | noTask _ _ | ended _ _ =>
    exact ⟨by simp, hidle, by simp⟩

/-- Where a batch can be spawned, the index is updated, and the new task gets its batch. -/
theorem spawn_safe (hsafe : PanicFree sdk P) {blockhash : Hash}
    (hs : ((lts sdk P).guard (Timely P)).Reachable s) (hp : s.phase = .spawning blockhash)
    (hroom : s.futures.length < P.workersPullSize) :
    (P.nextIndexPayer s.indexPayer).isSome = true ∧ ∀ sample,
      IsSample P.transactionParams.lamportsToTransfer P.count sample →
      (generateTransferTransactionBatch sdk P.checks P.payers s.indexPayer blockhash
        P.transactionParams P.sendBatchSize sample).isSome = true := by
  obtain ⟨s', hstep⟩ : ∃ s', step sdk P s .spawn = some s' := by
    simp only [step, hp, if_pos hroom]
    split <;> exact ⟨_, rfl⟩
  have hsafe' := hsafe s' (hs.step (l := .spawn) ⟨trivial, hstep⟩)
  cases step_move hstep with
  | spawnPanic _ _ _ => exact absurd rfl hsafe'.loop
  | @spawn blockhash' _ hp' _ hnext =>
    obtain rfl : blockhash = blockhash' := Phase.spawning.inj (hp.symm.trans hp')
    refine ⟨by rw [hnext]; rfl, fun sample hsample => ?_⟩
    exact hsafe'.tasks _ (List.mem_append_right _ (List.mem_singleton.2 rfl)) rfl sample hsample

/-! ## Every batch is spawned in some run -/

/-- The run to the first spawn. -/
theorem spawning_reachable (hval : P.Validated) (hzero : P.runDuration ≠ some 0) (h : Hash) :
    ((lts sdk P).guard (Timely P)).Reachable
      { TransactionGenerator.init with phase := .spawning h } := by
  obtain ⟨minCuBudget, hmin, hle⟩ := hval
  have hvalid : step sdk P .init .validate =
      some { TransactionGenerator.init with phase := .looping } := by
    simp [step, TransactionGenerator.init, hmin, Nat.not_lt.2 hle]
  have hlooping : ((lts sdk P).guard (Timely P)).Reachable
      { TransactionGenerator.init with phase := .looping } :=
    (LTS.Reachable.init rfl).step (l := .validate) ⟨trivial, hvalid⟩
  exact hlooping.step (l := .borrowBlockhash h) ⟨hzero, rfl⟩

theorem find_head {futures rest : List Task} {t : Task} (hf : futures = t :: rest) :
    futures.find? (·.number = t.number) = some t := by
  rw [hf]
  exact List.find?_cons_of_pos (decide_eq_true rfl)

theorem setTask_head {futures rest : List Task} {t : Task} (hf : futures = t :: rest)
    (state : TaskState) : setTask futures t.number state =
      { t with state := state } :: setTask rest t.number state := by
  rw [hf, setTask, List.map_cons, if_pos rfl]
  rfl

/-- `s'` is `s` with a task less, at the head of the loop. -/
def Freed (s s' : TransactionGenerator) : Prop :=
  s'.phase = .looping ∧ s'.indexPayer = s.indexPayer ∧ s'.futures.length < s.futures.length

/-- A task that goes on is still there. -/
theorem Freed.before {number : Nat} {state : TaskState} {sent : List (List Bytes)}
    {generated : List (Nat × List TransferTx)} (h : Freed { s with
      futures := setTask s.futures number state, sent := sent, generated := generated } s') :
    Freed s s' := by
  obtain ⟨hphase, hindex, hlt⟩ := h
  rw [setTask_length] at hlt
  exact ⟨hphase, hindex, hlt⟩

theorem freed_of_finished {t : Task} {rest : List Task}
    (hs : ((lts sdk P).guard (Timely P)).Reachable s) (hp : s.phase = .joining)
    (hf : s.futures = t :: rest) (hdone : t.state = .finished) :
    ∃ s', ((lts sdk P).guard (Timely P)).Reachable s' ∧ Freed s s' := by
  have hfind := find_head hf
  obtain ⟨number, indexPayer, blockhash, state⟩ := t
  cases hdone
  refine ⟨{ s with phase := .looping, futures := s.futures.filter (·.number ≠ number) },
    hs.step (l := .joinNext number) ⟨trivial, ?_⟩, rfl, rfl, ?_⟩
  · show step sdk P s (.joinNext number) = _
    simp only [step, hfind, hp]
  · show (s.futures.filter (·.number ≠ number)).length < s.futures.length
    rw [hf, List.filter_cons_of_neg (by simp), List.length_cons]
    exact Nat.lt_succ_of_le (List.length_filter_le _ _)

theorem freed_of_sending {t : Task} {rest : List Task} {batch : List Bytes}
    (hs : ((lts sdk P).guard (Timely P)).Reachable s) (hp : s.phase = .joining)
    (hf : s.futures = t :: rest) (hsend : t.state = .sending batch) :
    ∃ s', ((lts sdk P).guard (Timely P)).Reachable s' ∧ Freed s s' := by
  have hfind := find_head hf
  have hhead := setTask_head hf .finished
  obtain ⟨number, indexPayer, blockhash, state⟩ := t
  cases hsend
  have hstep : step sdk P s (.send number true) = some { s with
      futures := setTask s.futures number .finished, sent := s.sent ++ [batch] } := by
    simp only [step, hfind]
    rfl
  obtain ⟨s', hs', hfreed⟩ := freed_of_finished
    (hs.step (l := .send number true) ⟨trivial, hstep⟩) hp hhead rfl
  exact ⟨s', hs', hfreed.before⟩

/-- Whatever its generation does, a task can be joined. -/
theorem exists_freed {t : Task} {rest : List Task}
    (hs : ((lts sdk P).guard (Timely P)).Reachable s) (hp : s.phase = .joining)
    (hf : s.futures = t :: rest) :
    ∃ s', ((lts sdk P).guard (Timely P)).Reachable s' ∧ Freed s s' := by
  cases hstate : t.state with
  | finished => exact freed_of_finished hs hp hf hstate
  | sending batch => exact freed_of_sending hs hp hf hstate
  | generating =>
    have hfind := find_head hf
    have hhead := setTask_head hf
    obtain ⟨number, indexPayer, blockhash, state⟩ := t
    cases hstate
    obtain ⟨sample, hsample⟩ : ∃ sample,
        IsSample P.transactionParams.lamportsToTransfer P.count sample :=
      ⟨_, isSample_range' _ _⟩
    cases hgen : generateTransferTransactionBatch sdk P.checks P.payers indexPayer blockhash
        P.transactionParams P.sendBatchSize sample with
    | some txs =>
      have hstep : step sdk P s (.generate number sample) = some { s with
          futures := setTask s.futures number (.sending (wired txs))
          generated := s.generated ++ [(number, txs)] } := by
        simp only [step, hfind, if_pos hsample, hgen]
      obtain ⟨s', hs', hfreed⟩ := freed_of_sending
        (hs.step (l := .generate number sample) ⟨trivial, hstep⟩) hp (hhead _) rfl
      exact ⟨s', hs', hfreed.before⟩
    | none =>
      have hstep : step sdk P s (.generate number sample) =
          some { s with futures := setTask s.futures number .finished } := by
        simp only [step, hfind, if_pos hsample, hgen]
      obtain ⟨s', hs', hfreed⟩ := freed_of_finished
        (hs.step (l := .generate number sample) ⟨trivial, hstep⟩) hp (hhead _) rfl
      exact ⟨s', hs', hfreed.before⟩

/-- Every batch is about to be spawned in some run, with any blockhash. -/
theorem spawning_batch (hval : P.Validated) (hzero : P.runDuration ≠ some 0)
    (hpull : P.workersPullSize ≠ 0) (h : Hash) : ∀ {k indexPayer : Nat},
      P.batchIndex k = some indexPayer → ∃ s, ((lts sdk P).guard (Timely P)).Reachable s ∧
        s.phase = .spawning h ∧ s.indexPayer = indexPayer ∧ s.futures.length < P.workersPullSize
  | 0, indexPayer, hk => by
    cases hk
    exact ⟨_, spawning_reachable hval hzero h, rfl, rfl, Nat.pos_of_ne_zero hpull⟩
  | k + 1, indexPayer, hk => by
    obtain ⟨before, hk, hnext⟩ := Option.bind_eq_some_iff.1 hk
    obtain ⟨s, hs, hp, rfl, hroom⟩ := spawning_batch hval hzero hpull h hk
    have hstep : step sdk P s .spawn = some { s with
        futures := s.futures ++ [⟨s.spawned, s.indexPayer, h, .generating⟩]
        indexPayer := indexPayer
        spawned := s.spawned + 1 } := by
      simp only [step, hp, if_pos hroom, hnext]
    have hspawned := hs.step (l := Label.spawn) ⟨trivial, hstep⟩
    by_cases hmore : s.futures.length + 1 < P.workersPullSize
    · exact ⟨_, hspawned, hp, rfl, by simpa using hmore⟩
    · -- the pool is full: a task is joined, and the blockhash read again
      have hfull : step sdk P { s with
          futures := s.futures ++ [⟨s.spawned, s.indexPayer, h, .generating⟩]
          indexPayer := indexPayer
          spawned := s.spawned + 1 } .poolFull = some { s with
            phase := .joining
            futures := s.futures ++ [⟨s.spawned, s.indexPayer, h, .generating⟩]
            indexPayer := indexPayer
            spawned := s.spawned + 1 } := by
        simp only [step, hp, List.length_append, List.length_singleton, if_neg hmore]
      have hjoining := hspawned.step (l := Label.poolFull) ⟨trivial, hfull⟩
      obtain ⟨t, rest, hf⟩ : ∃ t rest, s.futures ++ [⟨s.spawned, s.indexPayer, h, .generating⟩] =
          t :: rest := by
        cases s.futures with
        | nil => exact ⟨_, _, rfl⟩
        | cons t rest => exact ⟨_, _, rfl⟩
      obtain ⟨s', hs', hphase, hindex, hlt⟩ := exists_freed hjoining rfl hf
      simp only [List.length_append, List.length_singleton] at hlt
      have hborrow : step sdk P s' (.borrowBlockhash h) =
          some { s' with phase := .spawning h } := by
        simp only [step, hphase]
      exact ⟨_, hs'.step (l := .borrowBlockhash h) ⟨hzero, hborrow⟩, rfl, hindex, by
        show s'.futures.length < P.workersPullSize
        omega⟩

end Runs

/-- **Validated parameters run without a panic exactly when they are executable.** -/
theorem no_panic_iff (sdk : Sdk) (P : Params) (hadm : P.Admitted) (hval : P.Validated) :
    PanicFree sdk P ↔ P.Executable sdk := by
  constructor
  · intro hsafe
    by_contra hexec
    simp only [Params.Executable, not_or] at hexec
    obtain ⟨hpull, hzero, hrun⟩ := hexec
    have hbatch : ∀ k indexPayer, P.batchIndex k = some indexPayer → ∀ blockhash,
        (P.nextIndexPayer indexPayer).isSome = true ∧ ∀ sample,
          IsSample P.transactionParams.lamportsToTransfer P.count sample →
          (generateTransferTransactionBatch sdk P.checks P.payers indexPayer blockhash
            P.transactionParams P.sendBatchSize sample).isSome = true := by
      intro k indexPayer hk blockhash
      obtain ⟨s, hs, hp, rfl, hroom⟩ := spawning_batch hval hzero hpull blockhash hk
      exact spawn_safe hsafe hs hp hroom
    obtain ⟨hindex, hfirst⟩ := hbatch 0 0 rfl Sender.plainHash
    obtain ⟨hne, hn, hle, -⟩ := (generate_isSome_iff sdk P hadm.batch hadm.lamports.2 _ _
      (isSample_range' _ _)).1 (hfirst _ (isSample_range' _ _))
    refine hrun ⟨hne, hn, hle, ((nextIndexPayer_isSome_iff P hadm.batch _).1 hindex).2, ?_⟩
    intro k indexPayer hk blockhash sample hsample
    exact ((generate_isSome_iff sdk P hadm.batch hadm.lamports.2 _ _ hsample).1
      ((hbatch k indexPayer hk blockhash).2 sample hsample)).2.2.2
  · intro hexec s hs
    have hI := indexed_reachable (LTS.guard_reachable hs)
    have hF : Fine sdk P s := by
      refine LTS.Inductive.reachable (P := Fine sdk P) ⟨?_, ?_⟩ s hs
      · rintro s rfl
        exact ⟨by simp [TransactionGenerator.init], fun _ => rfl,
          by simp [TransactionGenerator.init]⟩
      · rintro s l s' hF ⟨htime, hstep⟩
        exact fine_step hadm hval hexec hF htime hstep
    refine ⟨hF.loop, fun t ht _ sample hsample => ?_⟩
    by_cases hrun : P.Runnable sdk
    · exact hrun.generates hadm hI ht hsample
    · rw [hF.idle hrun] at ht
      cases ht

/-- Batches of two one-transfer transactions. -/
theorem no_panic_twoWorkers : PanicFree Sender.plainSdk twoWorkers :=
  (no_panic_iff Sender.plainSdk twoWorkers ⟨by decide, by decide⟩ ⟨300, by decide, by decide⟩).2
    (.inr (.inr ⟨by decide, by decide, by decide, fun _ => by decide,
      fun _ _ _ _ _ _ => plainSdk_takesBatch (by decide)⟩))

/-- Five transfers a transaction, paid for by the CU budget, in batches of 128. -/
def fiveTransfers : Params where
  payers := List.replicate 8 Sender.plainPayer
  transactionParams := ⟨513, 900, 5⟩
  sendBatchSize := 128
  runDuration := none
  workersPullSize := 8
  checks := false

/-- They pass the validation, and the first batch asks for 640 of 513 amounts. -/
theorem fiveTransfers_panics : fiveTransfers.Admitted ∧ fiveTransfers.Validated ∧
    ¬ PanicFree Sender.plainSdk fiveTransfers := by
  have hadm : fiveTransfers.Admitted := ⟨by decide, by decide⟩
  have hval : fiveTransfers.Validated := ⟨900, by decide, by decide⟩
  refine ⟨hadm, hval, fun hsafe => ?_⟩
  have hfirst := (spawn_safe hsafe (spawning_reachable hval (by decide) Sender.plainHash) rfl
    (by decide)).2 _ (isSample_range' _ _)
  have hamounts := ((generate_isSome_iff _ _ hadm.batch hadm.lamports.2 _ _
    (isSample_range' _ _)).1 hfirst).2.2.1
  exact absurd hamounts (by decide)

/-- A header counts the signatures in a byte, so `new_signed_with_payer` panics on more than 255
signers. Then a transaction cannot have more transfers either, if its senders are different. -/
theorem Params.Runnable.transfers_lt {sdk : Sdk} {P : Params} (hrun : P.Runnable sdk)
    (hB : 1 ≤ P.sendBatchSize)
    (hbyte : ∀ message signers, sdk.signs message signers = true → signers.dedup.length < 256)
    (hnodup : P.payers.Nodup)
    (hround : 2 * P.transactionParams.numSendInstructionsPerTx ≤ P.payers.length) :
    P.transactionParams.numSendInstructionsPerTx < 256 := by
  obtain ⟨sender, tx, -, hwalk, rfl⟩ := walkTransaction_isSome sdk Sender.plainHash
    P.transactionParams.transferTxCuBudget 0 ((List.range' 1
      (min P.count P.transactionParams.lamportsToTransfer)).take
        P.transactionParams.numSendInstructionsPerTx) hrun.payers hrun.transfers
  have htakes := hrun.takes 0 0 rfl Sender.plainHash _ (isSample_range' _ _) 0 (by omega) _ hwalk
  have hlt := hbyte _ _ htakes.1
  have hsigners : ((pairs P.payers 0 P.transactionParams.numSendInstructionsPerTx).map
      Prod.fst).Nodup := by
    refine List.nodup_iff_getElem?_ne_getElem?.2 fun i j hij hj => ?_
    rw [List.length_map, length_pairs hrun.payers] at hj
    have hi : i < P.transactionParams.numSendInstructionsPerTx := by omega
    obtain ⟨a, _, hpair, ha, -⟩ := getElem?_pairs hrun.payers 0 hi
    obtain ⟨b, _, hpair', hb, -⟩ := getElem?_pairs hrun.payers 0 hj
    rw [Nat.zero_add, Nat.mod_eq_of_lt (by omega)] at ha hb
    rw [List.getElem?_map, List.getElem?_map, hpair, hpair', Option.map_some, Option.map_some,
      ← ha, ← hb]
    exact (List.nodup_iff_getElem?_ne_getElem?.1 hnodup) _ _ (by omega) (by omega)
  simpa only [hsigners.dedup, List.length_map, length_pairs hrun.payers] using hlt

end TpuTools.Generator
