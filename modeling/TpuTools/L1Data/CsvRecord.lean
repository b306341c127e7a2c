import Mathlib.Data.List.Basic

/-!
# `CSVRecord` (`rate-latency-tool/src/csv_writer.rs`)

One record is kept for every transaction the tool sends and for every block transaction
it receives. `asCsvRecord` is the row written to the file: twelve fields in the order of
`fieldNames`, an absent value as the empty string, `tx_status` as
`Status(address)` items joined by `|`.

Numbers are naturals; that they fit their machine type matters only where they are
parsed or computed (`Memo`, `Ticks`).
-/
namespace TpuTools

/-- mirrors rate-latency-tool/src/csv_writer.rs:28-35 -/
inductive TransactionSendStatus where
  | sent
  | fullChannel
  | receiverDropped
  | other
  deriving DecidableEq, Repr

/-- The derived `Debug` text. -/
def TransactionSendStatus.debug : TransactionSendStatus → String
  | .sent => "Sent"
  | .fullChannel => "FullChannel"
  | .receiverDropped => "ReceiverDropped"
  | .other => "Other"

/-- mirrors rate-latency-tool/src/csv_writer.rs:38-51 -/
structure CSVRecord where
  signature : String
  transactionId : Option Nat
  sentSlot : Option Nat
  receivedSlot : Option Nat
  sentTimestamp : Option Nat
  receivedTimestamp : Option Nat
  receivedSubscrTimestamp : Option Nat
  indexInBlock : Option Nat
  txStatus : List (TransactionSendStatus × String)
  tick : Option Nat
  txType : Option String
  numTransactionInBlock : Option Nat
  deriving DecidableEq, Repr

namespace CSVRecord

/-- mirrors rate-latency-tool/src/csv_writer.rs:54-69 -/
def fieldNames : List String :=
  ["signature", "transaction_id", "sent_slot", "received_slot", "sent_timestamp",
    "received_timestamp", "received_subscr_timestamp", "index_in_block", "tx_status", "tick",
    "tx_type", "num_transaction_in_block"]

/-- `self.x.map(|x| x.to_string()).unwrap_or_default()` -/
def numField (x : Option Nat) : String := (x.map toString).getD ""

/-- mirrors rate-latency-tool/src/csv_writer.rs:71-106 -/
def asCsvRecord (r : CSVRecord) : List String :=
  [r.signature, numField r.transactionId, numField r.sentSlot, numField r.receivedSlot,
    numField r.sentTimestamp, numField r.receivedTimestamp, numField r.receivedSubscrTimestamp,
    numField r.indexInBlock,
    String.intercalate "|" (r.txStatus.map fun (status, address) =>
      status.debug ++ "(" ++ address ++ ")"),
    numField r.tick, r.txType.getD "", numField r.numTransactionInBlock]

/-- Every row has exactly the header's columns, so the writer never meets a row of
another length. -/
theorem asCsvRecord_length (r : CSVRecord) : r.asCsvRecord.length = fieldNames.length := rfl

@[simp] theorem asCsvRecord_signature (r : CSVRecord) : r.asCsvRecord[0]? = some r.signature := rfl

@[simp] theorem asCsvRecord_transactionId (r : CSVRecord) :
    r.asCsvRecord[1]? = some (numField r.transactionId) := rfl

end CSVRecord

end TpuTools
