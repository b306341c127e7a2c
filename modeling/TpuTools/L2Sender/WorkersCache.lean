import TpuTools.L1Data.Keys

/-!
# The workers cache (`solana_tpu_client_next::workers_cache`)

Both tools send through a `WorkersCache`: one worker with a bounded channel for each peer.
Its code is not in the repository, so it is a parameter here: a type `W` of states and the
operations the tools call. Nothing is assumed of `W`, which may hold the outcomes of all
sends to come; a statement about every cache is one about every sequence of outcomes.

* `WorkersCache.Lawful`: what the sends are documented to do.
* `plainCache`: a cache that follows a list of answers, and is lawful.
-/
namespace TpuTools.Sender

/-- `std::net::SocketAddr` -/
structure SocketAddr where
  ip : Bytes
  port : Nat
  deriving DecidableEq

/-- `other` stands for the errors the tools do not name. -/
inductive WorkersCacheError where
  | shutdownError
  | receiverDropped
  | fullChannel
  | other
  deriving DecidableEq, Repr

/-- `TransactionBatch`: the serialized transactions of a batch. -/
abbrev TransactionBatch := List Bytes

abbrev SendResult := Except WorkersCacheError Unit

structure WorkersCache (W : Type) where
  contains : W → SocketAddr → Bool
  /-- what the evicted worker's `shutdown_worker` does is not seen -/
  ensureWorker : W → SocketAddr → W
  trySendTransactionsToAddress : W → SocketAddr → TransactionBatch → SendResult × W
  sendTransactionsToAddress : W → SocketAddr → TransactionBatch → SendResult × W
  pop : W → SocketAddr → W
  /-- ghost: the copies put into the channels of the workers so far -/
  enqueued : W → List (SocketAddr × TransactionBatch)

/-- What a send with result `r` did to the cache: one copy on `Ok`, none otherwise, and the
worker is removed when its receiver is gone. -/
structure WorkersCache.Did {W : Type} (api : WorkersCache W) (w : W) (peer : SocketAddr)
    (batch : TransactionBatch) (r : SendResult) (w' : W) : Prop where
  enqueued : api.enqueued w' = api.enqueued w ++ (if r = .ok () then [(peer, batch)] else [])
  contains : ∀ p, api.contains w' p =
    (api.contains w p && !(decide (r = .error .receiverDropped) && decide (p = peer)))

/-- The sends need a worker; the awaited one waits for space instead of failing. -/
structure WorkersCache.Lawful {W : Type} (api : WorkersCache W) : Prop where
  trySend : ∀ w peer batch, api.contains w peer = true →
    (api.trySendTransactionsToAddress w peer batch).1 ∈
        [.ok (), .error .fullChannel, .error .shutdownError, .error .receiverDropped] ∧
      api.Did w peer batch (api.trySendTransactionsToAddress w peer batch).1
        (api.trySendTransactionsToAddress w peer batch).2
  send : ∀ w peer batch, api.contains w peer = true →
    (api.sendTransactionsToAddress w peer batch).1 ∈
        [.ok (), .error .shutdownError, .error .receiverDropped] ∧
      api.Did w peer batch (api.sendTransactionsToAddress w peer batch).1
        (api.sendTransactionsToAddress w peer batch).2

/-- ghost: one leader's turn in a loop over leaders -/
structure Turn (W : Type) where
  leader : SocketAddr
  /-- the cache at its turn -/
  cache : W
  /-- `none`: the leader has no worker and is skipped -/
  result : Option SendResult

/-! ## A cache that follows a script -/

/-- What the next send finds. -/
inductive Answer where
  | space
  | full
  | shutdown
  | dropped
  deriving DecidableEq, Repr

structure PlainCache where
  workers : List SocketAddr
  /-- with none left there is space -/
  answers : List Answer
  enqueued : List (SocketAddr × TransactionBatch)
  deriving DecidableEq

def Answer.result : Answer → SendResult
  | .space => .ok ()
  | .full => .error .fullChannel
  | .shutdown => .error .shutdownError
  | .dropped => .error .receiverDropped

/-- A full channel is waited for. -/
def Answer.awaited : Answer → Answer
  | .full => .space
  | a => a

/-- One send that finds `a`. -/
def PlainCache.answer (w : PlainCache) (peer : SocketAddr) (batch : TransactionBatch) (a : Answer) :
    SendResult × PlainCache :=
  (a.result,
    { workers := if a = .dropped then w.workers.filter (· ≠ peer) else w.workers
      answers := w.answers.tail
      enqueued := w.enqueued ++ (if a = .space then [(peer, batch)] else []) })

def plainCache : WorkersCache PlainCache where
  contains w peer := decide (peer ∈ w.workers)
  ensureWorker w peer := if peer ∈ w.workers then w else { w with workers := peer :: w.workers }
  trySendTransactionsToAddress w peer batch :=
    w.answer peer batch (w.answers.head?.getD .space)
  sendTransactionsToAddress w peer batch :=
    w.answer peer batch (w.answers.head?.getD .space).awaited
  pop w peer := { w with workers := w.workers.filter (· ≠ peer) }
  enqueued w := w.enqueued

theorem PlainCache.answer_did (w : PlainCache) (peer : SocketAddr) (batch : TransactionBatch)
    (a : Answer) :
    plainCache.Did w peer batch (w.answer peer batch a).1 (w.answer peer batch a).2 := by
  constructor
  · cases a <;> simp [plainCache, PlainCache.answer, Answer.result]
  · intro p
    cases a <;> simp [plainCache, PlainCache.answer, Answer.result]

theorem plainCache_lawful : plainCache.Lawful where
  trySend w peer batch _ := by
    refine ⟨?_, w.answer_did peer batch _⟩
    simp only [plainCache, PlainCache.answer]
    cases w.answers.head?.getD .space <;> simp [Answer.result]
  send w peer batch _ := by
    refine ⟨?_, w.answer_did peer batch _⟩
    simp only [plainCache, PlainCache.answer]
    cases w.answers.head?.getD .space <;> simp [Answer.result, Answer.awaited]

end TpuTools.Sender
