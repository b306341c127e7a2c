import TpuTools.L1Data.Keys

/-!
# Yellowstone updates

The protobuf messages of the subscription, reduced to the fields the tools read. All
fields arrive from outside: lists of bytes have any length, and every submessage may be
absent.
-/
namespace TpuTools

/-- Slot status of the stream, numbered as in the protobuf enum. -/
inductive SlotStatus where
  | slotProcessed
  | slotConfirmed
  | slotFinalized
  | slotFirstShredReceived
  | slotCompleted
  | slotCreatedBank
  | slotDead
  deriving DecidableEq, Repr

/-- `SlotStatus::try_from(code)` -/
def SlotStatus.tryFrom : Int → Option SlotStatus
  | 0 => some .slotProcessed
  | 1 => some .slotConfirmed
  | 2 => some .slotFinalized
  | 3 => some .slotFirstShredReceived
  | 4 => some .slotCompleted
  | 5 => some .slotCreatedBank
  | 6 => some .slotDead
  | _ => none

/-- The message of a transaction; only its account keys are read. -/
structure TxMessage where
  accountKeys : List Bytes
  deriving DecidableEq

structure TxBody where
  message : Option TxMessage
  deriving DecidableEq

structure TransactionStatusMeta where
  logMessages : List String
  deriving DecidableEq

structure SubscribeUpdateTransactionInfo where
  signature : Bytes
  isVote : Bool
  transaction : Option TxBody
  statusMeta : Option TransactionStatusMeta
  index : Nat
  deriving DecidableEq

structure SubscribeUpdateTransaction where
  transaction : Option SubscribeUpdateTransactionInfo
  slot : Nat
  deriving DecidableEq

structure SubscribeUpdateEntry where
  slot : Nat
  index : Nat
  executedTransactionCount : Nat
  deriving DecidableEq

structure SubscribeUpdateSlot where
  slot : Nat
  status : Int
  deriving DecidableEq

/-- The accessor `grpc_slot.status()`: an unknown code reads as the default variant. -/
def SubscribeUpdateSlot.slotStatus (u : SubscribeUpdateSlot) : SlotStatus :=
  (SlotStatus.tryFrom u.status).getD .slotProcessed

structure SubscribeUpdateBlockMeta where
  slot : Nat
  executedTransactionCount : Nat
  entriesCount : Nat
  deriving DecidableEq

/-- `unsupported` stands for every other kind of update (accounts, blocks, pings, ...). -/
inductive UpdateOneof where
  | transaction (tx : SubscribeUpdateTransaction)
  | entry (entry : SubscribeUpdateEntry)
  | slot (slot : SubscribeUpdateSlot)
  | blockMeta (blockMeta : SubscribeUpdateBlockMeta)
  | unsupported
  deriving DecidableEq

/-- A protobuf timestamp: seconds and nanoseconds since the Unix epoch. -/
structure Timestamp where
  seconds : Int
  nanos : Int
  deriving DecidableEq

structure SubscribeUpdate where
  createdAt : Option Timestamp
  updateOneof : Option UpdateOneof
  deriving DecidableEq

/-- Milliseconds since the epoch, `None` before it; the cast to `u64` truncates. The nanoseconds
are taken to be below a second, as a valid timestamp has them: others are normalised first.
mirrors rate-latency-tool/src/yellowstone_subscriber.rs:187-191 -/
def SubscribeUpdate.receivedSubscrTimestamp (u : SubscribeUpdate) : Option Nat :=
  u.createdAt.bind fun ts =>
    let nanos := ts.seconds * 1000000000 + ts.nanos
    if nanos < 0 then none else some ((nanos / 1000000).toNat % 2 ^ 64)

end TpuTools
