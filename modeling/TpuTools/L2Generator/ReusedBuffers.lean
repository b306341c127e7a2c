import Mathlib.Data.List.Nodup
import TpuTools.L2Generator.TransferBatch

/-!
# The buffers of a batch (`transaction-bench/src/generator/simple_transfers_generator.rs`)

One payer iterator, one amount iterator, one instruction vector and one signer vector serve
all transactions of a batch. `TransferBatch` starts each transaction with empty vectors;
`batchInPlace` keeps them, with the two `clear`s of the source, and `batchInPlace_eq` says
that a cleared vector is as good as a new one.

* `formed_of_walk`: what a transaction of the batch consists of.
* **`generate_distinct`**: the transactions of a batch share the chosen amounts out among
  them, none left over and none used twice, so no two of them are the same. That the SDK signs
  and serializes them (`TakesBatch`) is assumed: `create_serialized_transfers` panics otherwise.
-/
namespace TpuTools.Generator
open Ints

/-- `instructions.clear(); signers.clear();` -/
def Builder.clear (b : Builder) : Builder :=
  { b with instructions := [], signers := [], used := [] }

section Source

variable (sdk : Sdk)

/-- The loop over the transactions of a batch, on the two vectors.
mirrors transaction-bench/src/generator/simple_transfers_generator.rs:37-50 -/
def batchInPlace (recentBlockhash : Hash) (params : SimpleTransferTxParams) :
    Nat → Builder → Option (List TransferTx × Builder)
  | 0, b => some ([], b)
  | t + 1, b => do
    let (txs, b) ← batchInPlace recentBlockhash params t b
    let (tx, b) ← createTransfers sdk recentBlockhash params.numSendInstructionsPerTx
      params.transferTxCuBudget b
    pure (txs ++ [tx], b.clear)

/-- The batch and what is left in the iterators and the vectors.
mirrors transaction-bench/src/generator/simple_transfers_generator.rs:14-53 -/
def generateInPlace (checks : Bool) (payers : List Keypair) (payerIndex : Nat)
    (blockhash : Hash) (params : SimpleTransferTxParams) (sendBatchSize : Nat)
    (sample : List Nat) : Option (List TransferTx × Builder) := do
  let count ← mulU64 checks params.numSendInstructionsPerTx sendBatchSize
  let lamports ← uniqueRandomNumbers count params.lamportsToTransfer sample
  batchInPlace sdk blockhash params sendBatchSize
    ⟨(Cycle.ofList payers).skip payerIndex, lamports, [], [], []⟩

end Source

/-! ## The same batch -/

section Same

variable {sdk : Sdk}

theorem batchInPlace_eq (blockhash : Hash) (params : SimpleTransferTxParams)
    (payer : Cycle Keypair) (lamports : List Nat) :
    ∀ B, batchInPlace sdk blockhash params B ⟨payer, lamports, [], [], []⟩ =
      (batchLoop sdk blockhash params B (payer, lamports)).map
        fun (txs, payer', lamports') => (txs, ⟨payer', lamports', [], [], []⟩) := by
  intro B
  induction B with
  | zero => rfl
  | succ B ih =>
    rw [batchInPlace, batchLoop, ih]
    -- the vectors the next call is given are the cleared ones
    cases batchLoop sdk blockhash params B (payer, lamports) with
    | none => rfl
    | some st =>
      obtain ⟨txs, payer', lamports'⟩ := st
      simp only [Option.map_some, Option.bind_eq_bind, Option.bind_some, Option.pure_def]
      cases createTransfers sdk blockhash params.numSendInstructionsPerTx
          params.transferTxCuBudget ⟨payer', lamports', [], [], []⟩ with
      | none => rfl
      | some r => rfl

/-- Clearing two vectors or taking two new ones makes no difference. -/
theorem generateInPlace_txs (checks : Bool) (payers : List Keypair) (payerIndex B : Nat)
    (blockhash : Hash) (params : SimpleTransferTxParams) (sample : List Nat) :
    generateTransferTransactionBatch sdk checks payers payerIndex blockhash params B sample =
      (generateInPlace sdk checks payers payerIndex blockhash params B sample).map Prod.fst := by
  unfold generateTransferTransactionBatch generateInPlace
  cases mulU64 checks params.numSendInstructionsPerTx B with
  | none => rfl
  | some count =>
    simp only [Option.bind_eq_bind, Option.bind_some]
    cases uniqueRandomNumbers count params.lamportsToTransfer sample with
    | none => rfl
    | some lamports =>
      simp only [Option.bind_some, batchInPlace_eq]
      cases batchLoop sdk blockhash params B ((Cycle.ofList payers).skip payerIndex, lamports) with
      | none => rfl
      | some r => rfl

end Same

/-! ## What a transaction is made of -/

/-- The amount a transfer moves. -/
def transferAmount : Instruction → Option Nat
  | .transfer _ _ lamports => some lamports
  | _ => none

/-- The amounts a transaction moves, in the order of its transfers. -/
def TransferTx.amounts (tx : TransferTx) : List Nat :=
  tx.tx.message.instructions.filterMap transferAmount

/-- The CU limit, then `n` transfers, and `n` signers; nothing else. -/
structure Formed (n budget : Nat) (tx : TransferTx) : Prop where
  instructions : ∃ transfers,
    tx.tx.message.instructions = .setComputeUnitLimit budget :: transfers ∧
      transfers.length = n ∧ ∀ i ∈ transfers, (transferAmount i).isSome = true
  signers : tx.tx.signers.length = n

section Batch

variable (sdk : Sdk) (blockhash : Hash) {payers : List Keypair}

/-- A transfer moves the amount at its place. -/
theorem amounts_transferInstructions : ∀ {ps : List (Keypair × Keypair)} {amounts : List Nat},
    ps.length = amounts.length →
      (transferInstructions sdk ps amounts).filterMap transferAmount = amounts
  | [], [], _ => rfl
  | pair :: ps, amount :: amounts, h => by
    have ih := amounts_transferInstructions (Nat.succ.inj h)
    rw [transferInstructions, List.zipWith_cons_cons,
      List.filterMap_cons_some (show transferAmount (.transfer _ _ amount) = some amount from rfl)]
    exact congrArg (amount :: ·) ih

/-- The transaction of `n` pairs and `n` amounts is well formed and moves these amounts. -/
theorem formed_of_walk {budget p n : Nat} {amounts : List Nat} {tx : TransferTx}
    (hne : payers ≠ []) (hlen : amounts.length = n)
    (h : walkTransaction sdk blockhash budget (pairs payers p n) amounts = some tx.tx) :
    Formed n budget tx ∧ tx.amounts = amounts := by
  have hpairs := length_pairs hne p n
  have heq := hpairs.trans hlen.symm
  obtain ⟨first, -, htx⟩ := Option.map_eq_some_iff.1 h
  have hins : tx.tx.message.instructions =
      .setComputeUnitLimit budget :: transferInstructions sdk (pairs payers p n) amounts := by
    rw [← htx]
  refine ⟨⟨⟨_, hins, ?_, ?_⟩, ?_⟩, ?_⟩
  · rw [length_transferInstructions heq, hpairs]
  · intro i hi
    obtain ⟨j, hj, rfl⟩ := List.mem_iff_getElem.1 hi
    simp only [transferInstructions, List.getElem_zipWith]
    rfl
  · rw [walkTransaction_signers h, List.length_map, hpairs]
  · rw [TransferTx.amounts, hins,
      List.filterMap_cons_none (show transferAmount (.setComputeUnitLimit budget) = none from rfl)]
    exact amounts_transferInstructions sdk heq

/-- Consecutive slices make up the beginning of a list. -/
theorem flatMap_slices {α β : Type} {f : α → List β} {n : Nat} : ∀ {as : List α} {xs : List β},
    (∀ t a, as[t]? = some a → f a = (xs.drop (n * t)).take n) →
      as.flatMap f = xs.take (n * as.length)
  | [], xs, _ => by simp
  | a :: as, xs, h => by
    have hrest : as.flatMap f = (xs.drop n).take (n * as.length) := by
      refine flatMap_slices fun t a' ht => ?_
      rw [h (t + 1) a' (by simpa using ht), List.drop_drop, Nat.mul_succ, Nat.add_comm]
    rw [List.flatMap_cons, hrest, h 0 a rfl, Nat.mul_zero, List.drop_zero, List.length_cons,
      Nat.mul_succ, Nat.add_comm, List.take_add]

/-- Transactions that share out distinct amounts, at least one each, differ pairwise. -/
theorem pairwise_distinct {n budget : Nat} {txs : List TransferTx} (hn : 1 ≤ n)
    (hformed : ∀ tx ∈ txs, Formed n budget tx)
    (hnodup : (txs.flatMap TransferTx.amounts).Nodup) :
    txs.Pairwise fun tx tx' =>
      tx.amounts.Disjoint tx'.amounts ∧ tx.tx.message ≠ tx'.tx.message := by
  have hdisjoint := (List.nodup_flatMap.1 hnodup).2
  refine hdisjoint.imp_of_mem ?_
  intro tx tx' htx _ hdis
  refine ⟨hdis, fun heq => ?_⟩
  -- the first transfer of `tx` would be one of `tx'` too
  obtain ⟨ts, hins, htl, hts⟩ := (hformed tx htx).instructions
  cases ts with
  | nil => simp only [List.length_nil] at htl; omega
  | cons i ts =>
    obtain ⟨a, ha⟩ := Option.isSome_iff_exists.1 (hts i List.mem_cons_self)
    have hmem : a ∈ tx.amounts := by
      unfold TransferTx.amounts
      rw [hins, List.mem_filterMap]
      exact ⟨i, by simp, ha⟩
    have hmem' : a ∈ tx'.amounts := by
      unfold TransferTx.amounts at hmem ⊢
      rwa [← heq]
    exact hdis hmem hmem'

end Batch

/-- **Every batch uses each chosen amount in one transfer, leaves none over, and consists of
`B` different transactions of the form asked for**, if the SDK takes its transactions. -/
theorem generate_distinct (sdk : Sdk) (checks : Bool) (payers : List Keypair)
    (payerIndex : Nat) (blockhash : Hash) (params : SimpleTransferTxParams) (B : Nat)
    {sample : List Nat} (hne : 1 ≤ payers.length) (hn : 1 ≤ params.numSendInstructionsPerTx)
    (hbound : params.lamportsToTransfer < 2 ^ 64)
    (hle : params.numSendInstructionsPerTx * B ≤ params.lamportsToTransfer)
    (hs : IsSample params.lamportsToTransfer (params.numSendInstructionsPerTx * B) sample)
    (htakes : TakesBatch sdk payers blockhash params payerIndex sample B) :
    ∃ txs b, generateInPlace sdk checks payers payerIndex blockhash params B sample =
        some (txs, b) ∧
      generateTransferTransactionBatch sdk checks payers payerIndex blockhash params B sample =
        some txs ∧
      b.lamports = [] ∧ txs.length = B ∧
      (∀ tx ∈ txs, Formed params.numSendInstructionsPerTx params.transferTxCuBudget tx) ∧
      txs.flatMap TransferTx.amounts = sample ∧
      (txs.flatMap TransferTx.amounts).Nodup ∧
      txs.Pairwise fun tx tx' =>
        tx.amounts.Disjoint tx'.amounts ∧ tx.tx.message ≠ tx'.tx.message := by
  have hpayers : payers ≠ [] := List.length_pos_iff.1 hne
  have hlen : sample.length = params.numSendInstructionsPerTx * B := by
    rw [hs.length, Nat.min_eq_left hle]
  have hat : Cycle.At payers payerIndex ((Cycle.ofList payers).skip payerIndex) := by
    simpa only [Nat.zero_add] using (Cycle.At.ofList payers).skip hpayers payerIndex
  obtain ⟨⟨txs, payer', lamports'⟩, hloop⟩ := Option.isSome_iff_exists.1
    ((batchLoop_isSome hpayers hn hat B (Nat.le_of_eq hlen.symm)).2 htakes)
  obtain ⟨rfl, -, rfl, htxs⟩ := batchLoop_spec hpayers hn hat (Nat.le_of_eq hlen.symm) hloop
  have hwalk : ∀ t tx, txs[t]? = some tx →
      Formed params.numSendInstructionsPerTx params.transferTxCuBudget tx ∧
        tx.amounts = (sample.drop (params.numSendInstructionsPerTx * t)).take
          params.numSendInstructionsPerTx := by
    intro t tx ht
    refine formed_of_walk sdk blockhash hpayers ?_ (htxs t tx ht).1
    -- the amounts of transaction `t` are there, as `t < B`
    have hlt := (List.getElem?_eq_some_iff.1 ht).1
    have hmul := Nat.mul_le_mul_left params.numSendInstructionsPerTx (Nat.succ_le_of_lt hlt)
    rw [Nat.mul_succ] at hmul
    rw [List.length_take, List.length_drop]
    omega
  have hformed : ∀ tx ∈ txs,
      Formed params.numSendInstructionsPerTx params.transferTxCuBudget tx := by
    intro tx htx
    obtain ⟨t, ht⟩ := List.mem_iff_getElem?.1 htx
    exact (hwalk t tx ht).1
  have hflat : txs.flatMap TransferTx.amounts = sample := by
    rw [flatMap_slices fun t tx ht => (hwalk t tx ht).2, ← hlen, List.take_length]
  have hgen : generateInPlace sdk checks payers payerIndex blockhash params txs.length sample =
      some (txs, ⟨payer', [], [], [], []⟩) := by
    rw [← hlen, List.drop_length] at hloop
    simp only [generateInPlace, mulU64_of_lt checks (Nat.lt_of_le_of_lt hle hbound),
      uniqueRandomNumbers, if_pos hle, Option.bind_eq_bind, Option.bind_some, batchInPlace_eq,
      hloop, Option.map_some]
  have hnodup : (txs.flatMap TransferTx.amounts).Nodup := by
    rw [hflat]
    exact hs.nodup
  refine ⟨txs, _, hgen, ?_, rfl, rfl, hformed, hflat, hnodup, pairwise_distinct hn hformed hnodup⟩
  rw [generateInPlace_txs, hgen]
  rfl

/-- Two transactions of two transfers, from a single payer to itself. -/
theorem generate_distinct_onePayer : ∃ txs b,
    generateInPlace Sender.plainSdk true [Sender.plainPayer] 7 Sender.plainHash ⟨5, 900, 2⟩ 2
      [3, 1, 5, 2] = some (txs, b) ∧ b.lamports = [] ∧ txs.length = 2 ∧
      txs.flatMap TransferTx.amounts = [3, 1, 5, 2] ∧
      txs.Pairwise fun tx tx' =>
        tx.amounts.Disjoint tx'.amounts ∧ tx.tx.message ≠ tx'.tx.message := by
  have hs : IsSample 5 (2 * 2) [3, 1, 5, 2] := ⟨by decide, by decide, by decide⟩
  obtain ⟨txs, b, h, -, hleft, hlen, -, hflat, -, hpair⟩ := generate_distinct Sender.plainSdk true
    [Sender.plainPayer] 7 Sender.plainHash ⟨5, 900, 2⟩ 2
    (by decide) (by decide) (by decide) (by decide) hs (plainSdk_takesBatch (by decide))
  exact ⟨txs, b, h, hleft, hlen, hflat, hpair⟩

end TpuTools.Generator
