import TpuTools.Core.Cyclic
import TpuTools.Core.Ints
import TpuTools.L2Sender.BuildTx

/-!
# Transfer transactions and their batches (`transaction-bench/src/generator`)

`createTransfers` forms, signs and serializes one transaction from the next `2 n` payers of a
cyclic iterator (p1 -> p2, p3 -> p4, …); `generateTransferTransactionBatch` repeats it
`send_batch_size` times on one iterator.

`none` is a panic: `unwrap` on an exhausted iterator, the assertion of
`unique_random_numbers`, a checked overflow, a transaction the SDK does not sign
(`new_signed_with_payer` panics), or one it does not serialize (the `expect`). Which
transactions these are is `Sdk.Takes`; of the first kind are those of 256 different signers.
Vectors are allocated as asked for.

* `walkTransaction`: the transaction of the `n` pairs of payers from an element of the cycle on.
* `createTransfers_eq`: what one call forms, and whether it returns.
* **`generate_spec`**: the `t`-th transaction of a batch that starts at payer `p` takes
  the elements `p + 2 n t, …, p + 2 n t + 2 n - 1` of the cycle.
* `generate_isSome`: when a batch is generated.
-/
namespace TpuTools.Generator
open Ints

/-- mirrors transaction-bench/src/cli.rs:152-171 -/
structure SimpleTransferTxParams where
  lamportsToTransfer : Nat
  transferTxCuBudget : Nat
  numSendInstructionsPerTx : Nat
  deriving DecidableEq

/-- What `create_serialized_transfers` gets by mutable reference. -/
structure Builder where
  payer : Cycle Keypair
  lamports : List Nat
  instructions : List Instruction
  signers : List Keypair
  /-- ghost: the indices in the payers list of the payers taken for this transaction -/
  used : List Nat

/-- A transaction of a batch. -/
structure TransferTx where
  tx : Transaction
  /-- its wire format -/
  wire : Bytes
  /-- ghost: the indices in the payers list of its payers -/
  used : List Nat

variable (sdk : Sdk)

/-- One sender, one receiver and the transfer between them; returns the sender. The first
transfer of a transaction and the loop body do the same.
mirrors transaction-bench/src/generator/transaction_builder.rs:56-78 -/
def nextTransfer (b : Builder) : Option (Keypair × Builder) := do
  let (sender, payer) ← b.payer.next
  let (receiver, payer') ← payer.next
  match b.lamports with
  | [] => none
  | amount :: lamports =>
    pure (sender,
      { payer := payer'
        lamports := lamports
        instructions :=
          b.instructions ++ [.transfer (sdk.pubkey sender) (sdk.pubkey receiver) amount]
        signers := b.signers ++ [sender]
        used := b.used ++ [b.payer.position, payer.position] })

/-- `k` rounds of the loop.
mirrors transaction-bench/src/generator/transaction_builder.rs:68-78 -/
def transfers : Nat → Builder → Option Builder
  | 0, b => some b
  | k + 1, b => (transfers k b).bind fun b' => (nextTransfer sdk b').map Prod.snd

/-- mirrors transaction-bench/src/generator/transaction_builder.rs:34-85 -/
def createTransfers (recentBlockhash : Hash) (numSendInstructionsPerTx transactionCuBudget : Nat)
    (b : Builder) : Option (TransferTx × Builder) := do
  let b := { b with instructions := .setComputeUnitLimit transactionCuBudget :: b.instructions }
  let (txPayerKp, b) ← nextTransfer sdk b
  let b ← transfers sdk (numSendInstructionsPerTx - 1) b
  let tx ← Transaction.newSignedWithPayer sdk b.instructions (sdk.pubkey txPayerKp) b.signers
    recentBlockhash
  let wire ← sdk.serialize tx
  pure (⟨tx, wire, b.used⟩, b)

/-- The loop over the transactions of a batch: the instruction and signer vectors are
cleared after each.
mirrors transaction-bench/src/generator/simple_transfers_generator.rs:37-50 -/
def batchLoop (recentBlockhash : Hash) (params : SimpleTransferTxParams) :
    Nat → Cycle Keypair × List Nat → Option (List TransferTx × Cycle Keypair × List Nat)
  | 0, (payer, lamports) => some ([], payer, lamports)
  | t + 1, st => do
    let (txs, payer, lamports) ← batchLoop recentBlockhash params t st
    let (tx, b) ← createTransfers sdk recentBlockhash params.numSendInstructionsPerTx
      params.transferTxCuBudget ⟨payer, lamports, [], [], []⟩
    pure (txs ++ [tx], b.payer, b.lamports)

/-- What `(1..=upper).choose_multiple(&mut rng, count)` may return: distinct values of the
range, `count` of them or all. -/
structure IsSample (upper count : Nat) (sample : List Nat) : Prop where
  nodup : sample.Nodup
  mem : ∀ a ∈ sample, 1 ≤ a ∧ a ≤ upper
  length : sample.length = min count upper

/-- The result of `unique_random_numbers` when the random choice is `sample`.
mirrors transaction-bench/src/generator/simple_transfers_generator.rs:55-65 -/
def uniqueRandomNumbers (count lamportsToTransfer : Nat) (sample : List Nat) :
    Option (List Nat) :=
  if count ≤ lamportsToTransfer then some sample else none

/-- mirrors transaction-bench/src/generator/simple_transfers_generator.rs:14-53 -/
def generateTransferTransactionBatch (checks : Bool) (payers : List Keypair) (payerIndex : Nat)
    (blockhash : Hash) (params : SimpleTransferTxParams) (sendBatchSize : Nat)
    (sample : List Nat) : Option (List TransferTx) := do
  let count ← mulU64 checks params.numSendInstructionsPerTx sendBatchSize
  let lamports ← uniqueRandomNumbers count params.lamportsToTransfer sample
  let (txs, _) ← batchLoop sdk blockhash params sendBatchSize
    ((Cycle.ofList payers).skip payerIndex, lamports)
  pure txs

/-- The serialized transactions of a batch. -/
def wired (txs : List TransferTx) : List Bytes := txs.map (·.wire)

/-! ## The transactions of a walk over the payers -/

/-- The senders and receivers of `n` transfers from element `p` of the cycle on. -/
def pairs (payers : List Keypair) (p n : Nat) : List (Keypair × Keypair) :=
  (List.range n).filterMap fun i => do
    let sender ← payers[(p + 2 * i) % payers.length]?
    let receiver ← payers[(p + 2 * i + 1) % payers.length]?
    pure (sender, receiver)

/-- Each pair with its amount. -/
def transferInstructions (pairs : List (Keypair × Keypair)) (amounts : List Nat) :
    List Instruction :=
  List.zipWith (fun pair amount => .transfer (sdk.pubkey pair.1) (sdk.pubkey pair.2) amount) pairs
    amounts

/-- The transaction of these pairs: every sender signs, the first one pays. -/
def walkTransaction (blockhash : Hash) (budget : Nat) (pairs : List (Keypair × Keypair))
    (amounts : List Nat) : Option Transaction :=
  pairs.head?.map fun first =>
    ⟨⟨.setComputeUnitLimit budget :: transferInstructions sdk pairs amounts, sdk.pubkey first.1,
      blockhash⟩, pairs.map Prod.fst⟩

/-- Transaction `t` of the batch that starts at element `p` of the cycle, when the amounts are
these. -/
def batchTransaction (payers : List Keypair) (blockhash : Hash) (params : SimpleTransferTxParams)
    (p : Nat) (amounts : List Nat) (t : Nat) : Option Transaction :=
  walkTransaction sdk blockhash params.transferTxCuBudget
    (pairs payers (p + 2 * params.numSendInstructionsPerTx * t) params.numSendInstructionsPerTx)
    ((amounts.drop (params.numSendInstructionsPerTx * t)).take params.numSendInstructionsPerTx)

/-- The SDK takes the first `B` transactions of the batch. -/
def TakesBatch (payers : List Keypair) (blockhash : Hash) (params : SimpleTransferTxParams)
    (p : Nat) (amounts : List Nat) (B : Nat) : Prop :=
  ∀ t < B, ∀ tx, batchTransaction sdk payers blockhash params p amounts t = some tx → sdk.Takes tx

variable {sdk}

theorem pairs_succ {payers : List Keypair} {p k : Nat} {sender receiver : Keypair}
    (hs : payers[(p + 2 * k) % payers.length]? = some sender)
    (hr : payers[(p + 2 * k + 1) % payers.length]? = some receiver) :
    pairs payers p (k + 1) = pairs payers p k ++ [(sender, receiver)] := by
  unfold pairs
  rw [List.range_succ, List.filterMap_append, List.filterMap_cons, List.filterMap_nil, hs, hr]
  rfl

/-- An element of the cycle, and the one after it. -/
theorem exists_pair {payers : List Keypair} (hne : payers ≠ []) (p : Nat) :
    ∃ sender receiver, payers[p % payers.length]? = some sender ∧
      payers[(p + 1) % payers.length]? = some receiver :=
  have hpos : 0 < payers.length := List.length_pos_iff.2 hne
  ⟨_, _, List.getElem?_eq_getElem (Nat.mod_lt _ hpos), List.getElem?_eq_getElem (Nat.mod_lt _ hpos)⟩

theorem length_pairs {payers : List Keypair} (hne : payers ≠ []) (p : Nat) :
    ∀ n, (pairs payers p n).length = n
  | 0 => rfl
  | n + 1 => by
    obtain ⟨sender, receiver, hs, hr⟩ := exists_pair hne (p + 2 * n)
    rw [pairs_succ hs hr, List.length_append, length_pairs hne p n]
    rfl

/-- The `k`-th element of a list extended at its end. -/
theorem getElem?_snoc {α : Type} {xs : List α} {x : α} {k i : Nat} (hk : xs.length = k) :
    (xs ++ [x])[i]? = if i = k then some x else xs[i]? := by
  subst hk
  split
  · rename_i h; subst h; simp
  · rename_i h
    rcases Nat.lt_or_ge i xs.length with hi | hi
    · rw [List.getElem?_append_left hi]
    · rw [List.getElem?_eq_none (by simp; omega), List.getElem?_eq_none hi]

theorem getElem?_pairs {payers : List Keypair} (hne : payers ≠ []) (p : Nat) {i : Nat} :
    ∀ {n}, i < n → ∃ sender receiver, (pairs payers p n)[i]? = some (sender, receiver) ∧
      payers[(p + 2 * i) % payers.length]? = some sender ∧
      payers[(p + 2 * i + 1) % payers.length]? = some receiver
  | n + 1, hi => by
    obtain ⟨sender, receiver, hs, hr⟩ := exists_pair hne (p + 2 * n)
    rw [pairs_succ hs hr, getElem?_snoc (length_pairs hne p n)]
    split
    · rename_i he
      subst he
      exact ⟨sender, receiver, rfl, hs, hr⟩
    · exact getElem?_pairs hne p (by omega)

theorem length_transferInstructions {ps : List (Keypair × Keypair)} {amounts : List Nat}
    (h : ps.length = amounts.length) :
    (transferInstructions sdk ps amounts).length = ps.length := by
  rw [transferInstructions, List.length_zipWith, ← h, Nat.min_self]

theorem walkTransaction_signers {blockhash : Hash} {budget : Nat} {ps : List (Keypair × Keypair)}
    {amounts : List Nat} {tx : Transaction}
    (h : walkTransaction sdk blockhash budget ps amounts = some tx) :
    tx.signers = ps.map Prod.fst := by
  obtain ⟨first, -, rfl⟩ := Option.map_eq_some_iff.1 h
  rfl

theorem walkTransaction_isSome (sdk : Sdk) (blockhash : Hash) (budget p : Nat) (amounts : List Nat)
    {payers : List Keypair} {n : Nat} (hne : payers ≠ []) (hn : 1 ≤ n) :
    ∃ sender tx, payers[p % payers.length]? = some sender ∧
      walkTransaction sdk blockhash budget (pairs payers p n) amounts = some tx ∧
      tx = ⟨⟨.setComputeUnitLimit budget :: transferInstructions sdk (pairs payers p n) amounts,
        sdk.pubkey sender, blockhash⟩, (pairs payers p n).map Prod.fst⟩ := by
  obtain ⟨sender, receiver, hfirst, hs, -⟩ := getElem?_pairs hne p (show 0 < n by omega)
  refine ⟨sender, _, hs, ?_, rfl⟩
  rw [walkTransaction, List.head?_eq_getElem?, hfirst]
  rfl

/-! ## One transaction -/

/-- The builder `b'` is `b` after `k` transfers that started at element `p` of the cycle. -/
structure Taken (sdk : Sdk) (payers : List Keypair) (p k : Nat) (b b' : Builder) : Prop where
  payer : Cycle.At payers (p + 2 * k) b'.payer
  lamports : b'.lamports = b.lamports.drop k
  instructions : b'.instructions =
    b.instructions ++ transferInstructions sdk (pairs payers p k) (b.lamports.take k)
  signers : b'.signers = b.signers ++ (pairs payers p k).map Prod.fst
  used : b'.used = b.used ++ (List.range (2 * k)).map fun j => (p + j) % payers.length

theorem Taken.refl {payers : List Keypair} {p : Nat} {b : Builder}
    (h : Cycle.At payers p b.payer) : Taken sdk payers p 0 b b where
  payer := h
  lamports := rfl
  instructions := by simp [pairs, transferInstructions]
  signers := by simp [pairs]
  used := by simp

/-- What one transfer adds. -/
theorem nextTransfer_spec {payers : List Keypair} {p k : Nat} {b b' : Builder} (hne : payers ≠ [])
    (h : Taken sdk payers p k b b') (hk : k < b.lamports.length) :
    ∃ sender b'', nextTransfer sdk b' = some (sender, b'') ∧
      payers[(p + 2 * k) % payers.length]? = some sender ∧ Taken sdk payers p (k + 1) b b'' := by
  obtain ⟨hpay, hlam, hins, hsig, hused⟩ := h
  obtain ⟨sender, c1, hn1, hs, hat1⟩ := hpay.next hne
  obtain ⟨receiver, c2, hn2, hr, hat2⟩ := hat1.next hne
  have hdrop : b'.lamports = b.lamports[k] :: b.lamports.drop (k + 1) := by
    rw [hlam, List.drop_eq_getElem_cons hk]
  have hlen : (pairs payers p k).length = (b.lamports.take k).length := by
    rw [length_pairs hne, List.length_take]
    omega
  refine ⟨sender,
    { payer := c2
      lamports := b.lamports.drop (k + 1)
      instructions := b'.instructions ++
        [.transfer (sdk.pubkey sender) (sdk.pubkey receiver) b.lamports[k]]
      signers := b'.signers ++ [sender]
      used := b'.used ++ [b'.payer.position, c1.position] }, ?_, hs, ?_⟩
  · simp only [nextTransfer, hn1, hn2, hdrop, Option.bind_eq_bind, Option.bind_some,
      Option.pure_def]
  · refine ⟨hat2, rfl, ?_, ?_, ?_⟩
    · rw [pairs_succ hs hr, List.take_succ_eq_append_getElem hk, transferInstructions,
        List.zipWith_append hlen, hins, List.append_assoc]
      rfl
    · rw [pairs_succ hs hr, List.map_append, hsig, List.append_assoc]
      rfl
    · simp only [hused, hpay.position hne, hat1.position hne,
        show 2 * (k + 1) = 2 * k + 1 + 1 by omega, List.range_succ, List.map_append,
        List.map_cons, List.map_nil, List.append_assoc, List.singleton_append]
      rfl

theorem transfers_spec {payers : List Keypair} {p m : Nat} {b b' : Builder} (hne : payers ≠ [])
    (h : Taken sdk payers p m b b') :
    ∀ k, m + k ≤ b.lamports.length →
      ∃ b'', transfers sdk k b' = some b'' ∧ Taken sdk payers p (m + k) b b'' := by
  intro k
  induction k with
  | zero => exact fun _ => ⟨b', rfl, h⟩
  | succ k ih =>
    intro hk
    obtain ⟨b1, h1, ht⟩ := ih (by omega)
    obtain ⟨sender, b2, h2, -, ht'⟩ := nextTransfer_spec hne ht (by omega)
    exact ⟨b2, by simp [transfers, h1, h2], ht'⟩

/-- `create_serialized_transfers` on cleared buffers forms the transaction of the next `n` pairs
and `n` amounts, and returns exactly if the SDK takes it. -/
theorem createTransfers_eq (sdk : Sdk) (blockhash : Hash) (budget : Nat)
    {payers : List Keypair} {p n : Nat} {payer : Cycle Keypair} {lamports : List Nat}
    (hne : payers ≠ []) (hn : 1 ≤ n) (hat : Cycle.At payers p payer) (hl : n ≤ lamports.length) :
    ∃ tx b, walkTransaction sdk blockhash budget (pairs payers p n) (lamports.take n) = some tx ∧
      Taken sdk payers p n ⟨payer, lamports, [.setComputeUnitLimit budget], [], []⟩ b ∧
      createTransfers sdk blockhash n budget ⟨payer, lamports, [], [], []⟩ =
        if sdk.signs tx.message tx.signers then
          (sdk.serialize tx).map fun wire => (⟨tx, wire, b.used⟩, b)
        else none := by
  have hstart : Taken sdk payers p 0 ⟨payer, lamports, [.setComputeUnitLimit budget], [], []⟩
      ⟨payer, lamports, [.setComputeUnitLimit budget], [], []⟩ := .refl hat
  obtain ⟨sender, b1, h1, hs, ht1⟩ := nextTransfer_spec hne hstart
    (show 0 < lamports.length by omega)
  obtain ⟨b2, h2, ht2⟩ := transfers_spec hne ht1 (n - 1) (by simp only; omega)
  rw [show 0 + 1 + (n - 1) = n by omega] at ht2
  obtain ⟨sender', tx, hs', hwalk, rfl⟩ :=
    walkTransaction_isSome sdk blockhash budget p (lamports.take n) hne hn
  obtain rfl : sender = sender' := Option.some.inj (hs.symm.trans hs')
  refine ⟨_, b2, hwalk, ht2, ?_⟩
  have hins := ht2.instructions
  have hsig := ht2.signers
  simp only [List.nil_append, List.singleton_append] at hins hsig
  simp only [createTransfers, h1, h2, hins, hsig, Transaction.newSignedWithPayer,
    Option.bind_eq_bind, Option.bind_some, Option.pure_def]
  split
  · rw [Option.bind_some, Option.map_eq_bind]
    rfl
  · rfl

theorem createTransfers_isSome (sdk : Sdk) (blockhash : Hash) (budget : Nat)
    {payers : List Keypair} {p n : Nat} {payer : Cycle Keypair} {lamports : List Nat}
    (hne : payers ≠ []) (hn : 1 ≤ n) (hat : Cycle.At payers p payer) (hl : n ≤ lamports.length) :
    (createTransfers sdk blockhash n budget ⟨payer, lamports, [], [], []⟩).isSome = true ↔
      ∀ tx, walkTransaction sdk blockhash budget (pairs payers p n) (lamports.take n) = some tx →
        sdk.Takes tx := by
  obtain ⟨tx, b, hwalk, -, heq⟩ := createTransfers_eq sdk blockhash budget hne hn hat hl
  rw [heq]
  constructor
  · intro h tx' htx
    obtain rfl : tx = tx' := Option.some.inj (hwalk.symm.trans htx)
    split at h
    · rename_i hsigns
      exact ⟨hsigns, by simpa using h⟩
    · cases h
  · intro h
    obtain ⟨hsigns, hserial⟩ := h tx hwalk
    rw [if_pos hsigns]
    simpa using hserial

/-- `tx` is the transaction that takes `2 n` payers from element `p` of the cycle on: its
transfers, signers and fee payer, its wire format, and the positions it uses. -/
structure Walks (sdk : Sdk) (payers : List Keypair) (n p : Nat) (tx : TransferTx) : Prop where
  transfers : ∃ budget transfers,
    tx.tx.message.instructions = .setComputeUnitLimit budget :: transfers ∧
    transfers.length = n ∧ ∀ i < n, ∃ sender receiver amount,
      payers[(p + 2 * i) % payers.length]? = some sender ∧
      payers[(p + 2 * i + 1) % payers.length]? = some receiver ∧
      transfers[i]? = some (.transfer (sdk.pubkey sender) (sdk.pubkey receiver) amount)
  signers : tx.tx.signers.length = n ∧
    ∀ i < n, tx.tx.signers[i]? = payers[(p + 2 * i) % payers.length]?
  feePayer : ∃ sender, tx.tx.signers.head? = some sender ∧
    tx.tx.message.payer = sdk.pubkey sender
  wire : sdk.serialize tx.tx = some tx.wire
  used : tx.used = (List.range (2 * n)).map fun j => (p + j) % payers.length

/-- Only the place of the first payer in the round matters. -/
theorem Walks.of_mod {payers : List Keypair} {n p q : Nat} {tx : TransferTx}
    (he : p % payers.length = q % payers.length) (h : Walks sdk payers n p tx) :
    Walks sdk payers n q tx := by
  have key : ∀ j, (p + j) % payers.length = (q + j) % payers.length := fun j => by
    rw [← Nat.mod_add_mod, he, Nat.mod_add_mod]
  obtain ⟨⟨budget, ts, h1, h2, h3⟩, ⟨h4, h5⟩, h6, h7, h8⟩ := h
  simp only [key, Nat.add_assoc] at h3 h5 h8
  exact ⟨⟨budget, ts, h1, h2, by simpa only [Nat.add_assoc] using h3⟩, ⟨h4, h5⟩, h6, h7, h8⟩

/-- The transaction of the walk, place by place. -/
theorem Walks.of_walkTransaction {blockhash : Hash} {budget n p : Nat} {payers : List Keypair}
    {amounts : List Nat} {tx : TransferTx} (hne : payers ≠ []) (hn : 1 ≤ n)
    (hlen : amounts.length = n)
    (htx : walkTransaction sdk blockhash budget (pairs payers p n) amounts = some tx.tx)
    (hwire : sdk.serialize tx.tx = some tx.wire)
    (hused : tx.used = (List.range (2 * n)).map fun j => (p + j) % payers.length) :
    Walks sdk payers n p tx := by
  obtain ⟨first, tx', hfirst, hwalk, htx'⟩ :=
    walkTransaction_isSome sdk blockhash budget p amounts hne hn
  obtain rfl : tx.tx = tx' := Option.some.inj (htx.symm.trans hwalk)
  have hpairs := length_pairs hne p n
  have hsigner : ∀ i < n, tx.tx.signers[i]? = payers[(p + 2 * i) % payers.length]? := by
    intro i hi
    obtain ⟨s, r, hpair, hs, -⟩ := getElem?_pairs hne p hi
    rw [htx', List.getElem?_map, hpair, hs]
    rfl
  refine ⟨⟨budget, transferInstructions sdk (pairs payers p n) amounts, by rw [htx'], ?_, ?_⟩,
    ⟨by rw [htx', List.length_map, hpairs], hsigner⟩, ⟨first, ?_, by rw [htx']⟩, hwire, hused⟩
  · rw [length_transferInstructions (hpairs.trans hlen.symm), hpairs]
  · intro i hi
    obtain ⟨s, r, hpair, hs, hr⟩ := getElem?_pairs hne p hi
    refine ⟨s, r, amounts[i], hs, hr, ?_⟩
    rw [transferInstructions, List.getElem?_zipWith, hpair, List.getElem?_eq_getElem (by omega)]
  · rw [List.head?_eq_getElem?, hsigner 0 (by omega)]
    exact hfirst

/-- What `create_serialized_transfers` builds and where it leaves the iterators. -/
theorem createTransfers_spec {blockhash : Hash} {budget : Nat} {payers : List Keypair} {p n : Nat}
    {payer : Cycle Keypair} {lamports : List Nat} {tx : TransferTx} {b : Builder}
    (hne : payers ≠ []) (hn : 1 ≤ n) (hat : Cycle.At payers p payer) (hl : n ≤ lamports.length)
    (h : createTransfers sdk blockhash n budget ⟨payer, lamports, [], [], []⟩ = some (tx, b)) :
    walkTransaction sdk blockhash budget (pairs payers p n) (lamports.take n) = some tx.tx ∧
      Walks sdk payers n p tx ∧ Cycle.At payers (p + 2 * n) b.payer ∧
      b.lamports = lamports.drop n := by
  obtain ⟨tx', b', hwalk, ht, heq⟩ := createTransfers_eq sdk blockhash budget hne hn hat hl
  rw [heq] at h
  split at h
  · obtain ⟨wire, hwire, he⟩ := Option.map_eq_some_iff.1 h
    obtain ⟨rfl, rfl⟩ := Prod.mk.inj he
    refine ⟨hwalk, .of_walkTransaction hne hn ?_ hwalk hwire ?_, ht.payer, ht.lamports⟩
    · rw [List.length_take]
      omega
    · exact ht.used
  · cases h

/-! ## One batch -/

/-- What the transactions of a batch are, and where the iterators are after them. -/
structure Batched (sdk : Sdk) (payers : List Keypair) (blockhash : Hash)
    (params : SimpleTransferTxParams) (p : Nat) (amounts : List Nat) (txs : List TransferTx)
    (payer : Cycle Keypair) (lamports : List Nat) : Prop where
  payer : Cycle.At payers (p + 2 * params.numSendInstructionsPerTx * txs.length) payer
  lamports : lamports = amounts.drop (params.numSendInstructionsPerTx * txs.length)
  txs : ∀ t tx, txs[t]? = some tx →
    batchTransaction sdk payers blockhash params p amounts t = some tx.tx ∧
      Walks sdk payers params.numSendInstructionsPerTx
        (p + 2 * params.numSendInstructionsPerTx * t) tx

section Batch

variable {blockhash : Hash} {params : SimpleTransferTxParams} {payers : List Keypair} {p : Nat}
  {payer : Cycle Keypair} {amounts : List Nat}

/-- One more transaction, at the end of a batch. -/
theorem Batched.snoc {txs : List TransferTx} {payer' : Cycle Keypair} {lamports' : List Nat}
    {tx : TransferTx} {b : Builder} (hne : payers ≠ [])
    (hn : 1 ≤ params.numSendInstructionsPerTx)
    (hl : params.numSendInstructionsPerTx * (txs.length + 1) ≤ amounts.length)
    (hB : Batched sdk payers blockhash params p amounts txs payer' lamports')
    (h : createTransfers sdk blockhash params.numSendInstructionsPerTx params.transferTxCuBudget
      ⟨payer', lamports', [], [], []⟩ = some (tx, b)) :
    Batched sdk payers blockhash params p amounts (txs ++ [tx]) b.payer b.lamports := by
  obtain ⟨hpayer, rfl, htxs⟩ := hB
  rw [Nat.mul_succ] at hl
  obtain ⟨hform, hwalk, hat, hlam⟩ := createTransfers_spec hne hn hpayer
    (by rw [List.length_drop]; omega) h
  have hlen : (txs ++ [tx]).length = txs.length + 1 := by simp
  refine ⟨?_, ?_, ?_⟩
  · rw [hlen, Nat.mul_succ, ← Nat.add_assoc]
    exact hat
  · rw [hlen, Nat.mul_succ, hlam, List.drop_drop]
  · intro t tx' ht
    rw [getElem?_snoc rfl] at ht
    split at ht
    · rename_i he
      cases ht
      subst he
      exact ⟨hform, hwalk⟩
    · exact htxs t tx' ht

theorem batchLoop_spec (hne : payers ≠ []) (hn : 1 ≤ params.numSendInstructionsPerTx)
    (hat : Cycle.At payers p payer) :
    ∀ {B : Nat} {txs : List TransferTx} {payer' : Cycle Keypair} {lamports' : List Nat},
      params.numSendInstructionsPerTx * B ≤ amounts.length →
      batchLoop sdk blockhash params B (payer, amounts) = some (txs, payer', lamports') →
      txs.length = B ∧ Batched sdk payers blockhash params p amounts txs payer' lamports'
  | 0, txs, payer', lamports', _, h => by
    cases h
    exact ⟨rfl, by simpa using hat, by simp, by simp⟩
  | B + 1, txs, payer', lamports', hl, h => by
    simp only [batchLoop, Option.bind_eq_bind, Option.bind_eq_some_iff, Option.pure_def,
      Option.some.injEq, Prod.mk.injEq] at h
    obtain ⟨⟨txs1, payer1, lamports1⟩, h1, ⟨tx, b⟩, h2, rfl, rfl, rfl⟩ := h
    have hle := Nat.mul_le_mul_left params.numSendInstructionsPerTx (Nat.le_succ B)
    obtain ⟨rfl, hB⟩ := batchLoop_spec hne hn hat (hle.trans hl) h1
    exact ⟨by simp, hB.snoc hne hn hl h2⟩

/-- The loop goes through exactly if the SDK takes its transactions. -/
theorem batchLoop_isSome (hne : payers ≠ []) (hn : 1 ≤ params.numSendInstructionsPerTx)
    (hat : Cycle.At payers p payer) :
    ∀ B, params.numSendInstructionsPerTx * B ≤ amounts.length →
      ((batchLoop sdk blockhash params B (payer, amounts)).isSome = true ↔
        TakesBatch sdk payers blockhash params p amounts B)
  | 0, _ => iff_of_true rfl fun t ht => absurd ht (Nat.not_lt_zero t)
  | B + 1, hl => by
    have hle := Nat.mul_le_mul_left params.numSendInstructionsPerTx (Nat.le_succ B)
    have ih := batchLoop_isSome hne hn hat B (hle.trans hl)
    rw [TakesBatch, Nat.forall_lt_succ_right, ← TakesBatch, ← ih]
    cases hloop : batchLoop sdk blockhash params B (payer, amounts) with
    | none => simp [batchLoop, hloop]
    | some st =>
      obtain ⟨txs, payer', lamports'⟩ := st
      obtain ⟨rfl, hB⟩ := batchLoop_spec hne hn hat (hle.trans hl) hloop
      have hleft : params.numSendInstructionsPerTx ≤ lamports'.length := by
        rw [Nat.mul_succ] at hl
        rw [hB.lamports, List.length_drop]
        omega
      have hlast := createTransfers_isSome sdk blockhash params.transferTxCuBudget hne hn
        hB.payer hleft
      rw [hB.lamports] at hlast
      simp only [batchLoop, hloop, hB.lamports, Option.bind_eq_bind, Option.bind_some,
        Option.pure_def, Option.isSome_some, true_and]
      refine Iff.trans ?_ hlast
      rw [Option.isSome_bind]
      simp

end Batch

/-- **A batch that is generated takes its payers from element `payerIndex` of the cycle on.** -/
theorem generate_spec {checks : Bool} {payers : List Keypair} {payerIndex B : Nat}
    {blockhash : Hash} {params : SimpleTransferTxParams} {sample : List Nat}
    {txs : List TransferTx} (hne : payers ≠ []) (hn : 1 ≤ params.numSendInstructionsPerTx)
    (hfit : params.numSendInstructionsPerTx * B < 2 ^ 64)
    (hs : IsSample params.lamportsToTransfer (params.numSendInstructionsPerTx * B) sample)
    (h : generateTransferTransactionBatch sdk checks payers payerIndex blockhash params B sample =
      some txs) :
    txs.length = B ∧ ∀ t tx, txs[t]? = some tx →
      Walks sdk payers params.numSendInstructionsPerTx
        (payerIndex + 2 * params.numSendInstructionsPerTx * t) tx := by
  simp only [generateTransferTransactionBatch, mulU64_of_lt checks hfit, uniqueRandomNumbers,
    Option.bind_eq_bind, Option.bind_some] at h
  split at h
  · rename_i hle
    simp only [Option.bind_some, Option.bind_eq_some_iff, Option.pure_def, Option.some.injEq] at h
    obtain ⟨⟨txs', payer', lamports'⟩, hloop, rfl⟩ := h
    obtain ⟨hlen, hB⟩ := batchLoop_spec hne hn ((Cycle.At.ofList payers).skip hne payerIndex)
      (by rw [hs.length]; omega) hloop
    rw [Nat.zero_add] at hB
    exact ⟨hlen, fun t tx ht => (hB.txs t tx ht).2⟩
  · cases h

/-- What stops a batch is the assertion on the number of distinct amounts, or the SDK. -/
theorem generate_isSome {checks : Bool} {payers : List Keypair} {payerIndex B : Nat}
    {blockhash : Hash} {params : SimpleTransferTxParams} {sample : List Nat}
    (hne : payers ≠ []) (hn : 1 ≤ params.numSendInstructionsPerTx)
    (hfit : params.numSendInstructionsPerTx * B < 2 ^ 64)
    (hs : IsSample params.lamportsToTransfer (params.numSendInstructionsPerTx * B) sample) :
    (generateTransferTransactionBatch sdk checks payers payerIndex blockhash params B
      sample).isSome = true ↔ params.numSendInstructionsPerTx * B ≤ params.lamportsToTransfer ∧
        TakesBatch sdk payers blockhash params payerIndex sample B := by
  simp only [generateTransferTransactionBatch, mulU64_of_lt checks hfit, uniqueRandomNumbers,
    Option.bind_eq_bind, Option.bind_some]
  split
  · rename_i hle
    have hloop := @batchLoop_isSome sdk blockhash params payers _ _ sample hne hn
      ((Cycle.At.ofList payers).skip hne payerIndex) B (by rw [hs.length]; omega)
    rw [Nat.zero_add] at hloop
    simp only [Option.bind_some, Option.pure_def, Option.isSome_bind, hle, true_and, ← hloop]
    cases batchLoop sdk blockhash params B ((Cycle.ofList payers).skip payerIndex, sample) <;>
      simp
  · rename_i hgt
    simp [hgt]

/-- One signer for each transfer. -/
theorem plainSdk_takesBatch {payers : List Keypair} {blockhash : Hash}
    {params : SimpleTransferTxParams} {p B : Nat} {amounts : List Nat}
    (hn : params.numSendInstructionsPerTx < 256) :
    TakesBatch Sender.plainSdk payers blockhash params p amounts B := by
  intro t _ tx htx
  apply Sender.plainSdk_takes
  rw [walkTransaction_signers htx, List.length_map]
  refine Nat.lt_of_le_of_lt (List.length_filterMap_le _ _) ?_
  rwa [List.length_range]

end TpuTools.Generator
