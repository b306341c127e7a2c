import Mathlib.Data.List.Dedup
import TpuTools.Core.Cyclic
import TpuTools.Core.Ints
import TpuTools.L1Data.CsvRecord
import TpuTools.L1Data.Keys
import TpuTools.L2Subscriber.Memo

/-!
# Building memo transactions (`rate-latency-tool/src/run_client.rs`)

`buildTx` is the closure `run_client` passes to the scheduler: it takes the next payer
of the cycle, numbers the transaction, and returns the signed memo transaction together
with the record that later goes to the tracker channel. Its captured state is `BuildState`.

`none` is a panic: an empty payers list (`payer_iter.next().unwrap()`), or a transaction the
SDK does not sign or serialize.
-/
namespace TpuTools.Sender
open Ints

variable (sdk : Sdk)

/-- mirrors rate-latency-tool/src/run_client.rs:44 -/
def MEMO_TX_CU : Nat := 20000

/-- The instructions of a memo transaction.
mirrors rate-latency-tool/src/run_client.rs:298-312 -/
def memoInstructions (memo : String) (computeUnitPrice : Option Nat) : List Instruction :=
  [.setComputeUnitLimit MEMO_TX_CU] ++
    (match computeUnitPrice with
      | some price => [.setComputeUnitPrice price]
      | none => []) ++
    [.setLoadedAccountsDataSizeLimit (100 * 1024), .memo memo]

/-- The signed transaction.
mirrors rate-latency-tool/src/run_client.rs:298-319 -/
def memoTransaction (txId currentSlot timestamp : Nat) (computeUnitPrice : Option Nat)
    (payer : Keypair) (blockhash : Hash) : Option Transaction :=
  let memo := Subscriber.memoText txId currentSlot timestamp
  Transaction.newSignedWithPayer sdk (memoInstructions memo computeUnitPrice) (sdk.pubkey payer)
    [payer] blockhash

/-- mirrors rate-latency-tool/src/run_client.rs:290-321 -/
def createMemoTransaction (txId currentSlot timestamp : Nat) (computeUnitPrice : Option Nat)
    (payer : Keypair) (blockhash : Hash) : Option (Signature × Bytes) := do
  let tx ← memoTransaction sdk txId currentSlot timestamp computeUnitPrice payer blockhash
  let signature ← tx.signature0 sdk
  let wire ← sdk.serialize tx
  pure (signature, wire)

/-- What the closure captures mutably: how often `payer_iter.next()` was called, and
`tx_id`. -/
structure BuildState where
  payersTaken : Nat
  txId : Nat
  deriving DecidableEq, Repr

def BuildState.init : BuildState := ⟨0, 0⟩

/-- The record of a transaction that was just built.
mirrors rate-latency-tool/src/run_client.rs:239-252 -/
def sentRecord (signature : String) (txId currentSlot timestamp : Nat) : CSVRecord where
  signature := signature
  transactionId := some txId
  sentSlot := some currentSlot
  receivedSlot := none
  sentTimestamp := some timestamp
  receivedTimestamp := none
  receivedSubscrTimestamp := none
  indexInBlock := none
  txStatus := []
  tick := none
  txType := some "TargetTpu"
  numTransactionInBlock := none

/-- `accounts.payers.iter().cycle()` at its `n`-th `next()`. -/
def cyclePayer (payers : List Keypair) (n : Nat) : Option Keypair := payers[n % payers.length]?

/-- mirrors rate-latency-tool/src/run_client.rs:225-254 -/
def buildTx (payers : List Keypair) (computeUnitPrice : Option Nat) (st : BuildState)
    (currentSlot timestamp : Nat) (blockhash : Hash) :
    Option (BuildState × Nat × Bytes × CSVRecord) := do
  let payer ← cyclePayer payers st.payersTaken
  let copyTxId := st.txId
  let (signature, tx) ← createMemoTransaction sdk copyTxId currentSlot timestamp computeUnitPrice
    payer blockhash
  pure (⟨st.payersTaken + 1, wrappingAdd st.txId 1⟩, copyTxId, tx,
    sentRecord signature.toText copyTxId currentSlot timestamp)

variable {sdk}

theorem memoTransaction_spec {txId slot ts : Nat} {price : Option Nat} {payer : Keypair}
    {blockhash : Hash} {tx : Transaction}
    (h : memoTransaction sdk txId slot ts price payer blockhash = some tx) :
    tx = ⟨⟨memoInstructions (Subscriber.memoText txId slot ts) price, sdk.pubkey payer, blockhash⟩,
      [payer]⟩ :=
  (Transaction.newSignedWithPayer_eq_some.1 h).2

/-- The memo of the transaction is the text that was put into it. -/
theorem memo_memoTransaction {txId slot ts : Nat} {price : Option Nat} {payer : Keypair}
    {blockhash : Hash} {tx : Transaction}
    (h : memoTransaction sdk txId slot ts price payer blockhash = some tx) :
    tx.message.memo = some (Subscriber.memoText txId slot ts) := by
  rw [memoTransaction_spec h]
  cases price <;> rfl

/-- What is returned is the first signature and the wire format of the transaction. -/
theorem createMemoTransaction_spec {txId slot ts : Nat} {price : Option Nat} {payer : Keypair}
    {blockhash : Hash} {signature : Signature} {wire : Bytes}
    (h : createMemoTransaction sdk txId slot ts price payer blockhash = some (signature, wire)) :
    ∃ tx, memoTransaction sdk txId slot ts price payer blockhash = some tx ∧
      tx.signature0 sdk = some signature ∧ sdk.serialize tx = some wire := by
  simp only [createMemoTransaction, Option.bind_eq_bind, Option.bind_eq_some_iff, Option.pure_def,
    Option.some.injEq, Prod.mk.injEq] at h
  obtain ⟨tx, htx, signature', hsignature, wire', hwire, rfl, rfl⟩ := h
  exact ⟨tx, htx, hsignature, hwire⟩

/-- What one call of the closure does. -/
theorem buildTx_spec {payers : List Keypair} {price : Option Nat} {st st' : BuildState}
    {slot ts id : Nat} {blockhash : Hash} {wire : Bytes} {record : CSVRecord}
    (h : buildTx sdk payers price st slot ts blockhash = some (st', id, wire, record)) :
    ∃ payer signature, cyclePayer payers st.payersTaken = some payer ∧
      createMemoTransaction sdk st.txId slot ts price payer blockhash = some (signature, wire) ∧
      id = st.txId ∧ st' = ⟨st.payersTaken + 1, wrappingAdd st.txId 1⟩ ∧
      record = sentRecord signature.toText st.txId slot ts := by
  simp only [buildTx, Option.bind_eq_bind, Option.bind_eq_some_iff, Option.pure_def,
    Option.some.injEq, Prod.mk.injEq] at h
  obtain ⟨payer, hp, ⟨signature, tx⟩, ht, rfl, rfl, rfl, rfl⟩ := h
  exact ⟨payer, signature, hp, ht, rfl, rfl, rfl⟩

def plainSignature : Signature := ⟨List.replicate 64 7, by decide⟩

/-- An SDK in which the public key is the secret and nothing is really signed; the number of
different signers has to fit in a byte. -/
def plainSdk : Sdk where
  pubkey k := k.secret
  messageData _ := []
  sign _ _ := plainSignature
  signs _ signers := decide (signers.dedup.length < 256)
  serialize _ := some []

theorem plainSdk_takes {tx : Transaction} (h : tx.signers.length < 256) : plainSdk.Takes tx := by
  have hle := (List.dedup_sublist tx.signers).length_le
  exact ⟨decide_eq_true (by omega), rfl⟩

def plainPayer : Keypair := ⟨⟨List.replicate 32 9, by decide⟩⟩

def plainHash : Hash := ⟨List.replicate 32 1, by decide⟩

end TpuTools.Sender
