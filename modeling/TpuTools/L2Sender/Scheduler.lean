import TpuTools.Core.LTS
import TpuTools.L2Sender.BuildTx
import TpuTools.L2Sender.WorkersCache

/-!
# The scheduler (`rate-latency-tool/src/run_rate_latency_tool_scheduler.rs`)

In every tick the scheduler asks for the leaders, ensures connections, builds one transaction
with its record, offers it to every leader that has a worker, and hands the record to
`send_record`. Both closures are the ones `run_client` passes.

A step is what happens between two places where something else can be seen: one call on the
cache, one call of a closure. The loop awaits only its ticker, so `select!` drops it there and
nowhere else; the token itself can be cancelled at any time. The answers of the leader updater,
the clock, the blockhash and the tracker are labels, the outcomes of the cache are in `W`.

* `completes`: a tick that was begun is finished without another await.
* **`records_faithful`**: one record for each transaction, and it says what was sent.
-/
namespace TpuTools.Sender
open Ints

variable {W : Type}

/-- Where the loop stands. -/
inductive Phase where
  /-- the only `await` -/
  | awaitingTick
  /-- in the loop over the connect leaders -/
  | connecting (currentSlot : Nat) (connectLeaders sendLeaders : List SocketAddr)
  /-- in the loop over the send leaders -/
  | sending (memoTx : Bytes) (record : CSVRecord) (sendLeaders : List SocketAddr)
  | ended

/-- ghost: what went into a call of `build_tx` that returned, and its transaction -/
structure Built where
  currentSlot : Nat
  timestamp : Nat
  blockhash : Hash
  memoTx : Bytes
  /-- the send leaders of its tick -/
  sendLeaders : List SocketAddr

/-- ghost: a turn in the loop over the send leaders -/
structure Offer (W : Type) extends Turn W where
  /-- which call of `build_tx` it belongs to -/
  tx : Nat
  transactionBatch : TransactionBatch

structure Scheduler (W : Type) where
  phase : Phase
  workers : W
  build : BuildState
  cancelled : Bool
  built : List Built
  offers : List (Offer W)
  /-- ghost: the records passed to `send_record` -/
  handed : List CSVRecord

def Scheduler.init (workers : W) : Scheduler W :=
  ⟨.awaitingTick, workers, .init, false, [], [], []⟩

inductive SchedulerLabel where
  | tick (currentSlot : Nat) (connectLeaders sendLeaders : List SocketAddr)
  /-- the next connect leader -/
  | connect
  | build (timestamp : Nat) (blockhash : Hash)
  /-- the next send leader -/
  | offer
  /-- `accepted`: the tracker's channel takes the record -/
  | sendRecord (accepted : Bool)
  /-- somebody cancels the token -/
  | cancel
  /-- `select!` takes the other branch -/
  | cancelled
  deriving DecidableEq

def SchedulerLabel.isTick : SchedulerLabel → Bool
  | .tick _ _ _ => true
  | _ => false

/-- mirrors rate-latency-tool/src/run_rate_latency_tool_scheduler.rs:96-136 -/
def statusOf : SendResult → TransactionSendStatus
  | .ok () => .sent
  | .error .shutdownError => .other
  | .error .receiverDropped => .receiverDropped
  | .error .fullChannel => .fullChannel
  | .error .other => .other

variable (api : WorkersCache W) (toText : SocketAddr → String) (sdk : Sdk) (payers : List Keypair)
  (computeUnitPrice : Option Nat)

/-- One send leader; its worker is popped when its receiver is gone.
mirrors rate-latency-tool/src/run_rate_latency_tool_scheduler.rs:85-138 -/
def Scheduler.offer (s : Scheduler W) (memoTx : Bytes) (record : CSVRecord)
    (newLeader : SocketAddr) (sendLeaders : List SocketAddr) : Scheduler W :=
  let turn := fun result => Offer.mk ⟨newLeader, s.workers, result⟩ (s.built.length - 1) [memoTx]
  if api.contains s.workers newLeader then
    let (sendRes, workers) := api.trySendTransactionsToAddress s.workers newLeader [memoTx]
    { s with
      phase := .sending memoTx { record with
        txStatus := record.txStatus ++ [(statusOf sendRes, toText newLeader)] } sendLeaders
      workers := if sendRes = .error .receiverDropped then api.pop workers newLeader else workers
      offers := s.offers ++ [turn (some sendRes)] }
  else
    { s with
      phase := .sending memoTx record sendLeaders
      offers := s.offers ++ [turn none] }

/-- mirrors rate-latency-tool/src/run_rate_latency_tool_scheduler.rs:49-150 and
rate-latency-tool/src/run_client.rs:216-263 -/
def schedulerStep (s : Scheduler W) : SchedulerLabel → Option (Scheduler W)
  | .tick currentSlot connectLeaders sendLeaders =>
    match s.phase with
    | .awaitingTick => some { s with phase := .connecting currentSlot connectLeaders sendLeaders }
    | _ => none
  | .connect =>
    match s.phase with
    | .connecting currentSlot (peer :: connectLeaders) sendLeaders =>
      some { s with
        phase := .connecting currentSlot connectLeaders sendLeaders
        workers := api.ensureWorker s.workers peer }
    | _ => none
  | .build timestamp blockhash =>
    match s.phase with
    | .connecting currentSlot [] sendLeaders =>
      match buildTx sdk payers computeUnitPrice s.build currentSlot timestamp blockhash with
      | some (build, _, memoTx, record) =>
        some { s with
          phase := .sending memoTx record sendLeaders
          build := build
          built := s.built ++ [⟨currentSlot, timestamp, blockhash, memoTx, sendLeaders⟩] }
      -- a panic ends the task
      | none => some { s with phase := .ended }
    | _ => none
  | .offer =>
    match s.phase with
    | .sending memoTx record (newLeader :: sendLeaders) =>
      some (s.offer api toText memoTx record newLeader sendLeaders)
    | _ => none
  | .sendRecord accepted =>
    match s.phase with
    | .sending _ record [] =>
      some { s with
        phase := .awaitingTick
        cancelled := s.cancelled || !accepted
        handed := s.handed ++ [record] }
    | _ => none
  | .cancel => some { s with cancelled := true }
  | .cancelled =>
    match s.phase with
    | .awaitingTick => if s.cancelled then some { s with phase := .ended } else none
    | _ => none

/-- The loop begins. -/
def Scheduler.Started (s : Scheduler W) : Prop := ∃ workers, s = .init workers

def scheduler : LTS (Scheduler W) SchedulerLabel :=
  LTS.ofFn Scheduler.Started (schedulerStep api toText sdk payers computeUnitPrice)

/-! ## The records -/

/-- The turns of the `k`-th transaction. -/
def offersOf (offers : List (Offer W)) (k : Nat) : List (Offer W) := offers.filter (·.tx = k)

/-- What the turns add to `tx_status`. -/
def statuses (offers : List (Offer W)) : List (TransactionSendStatus × String) :=
  offers.filterMap fun o => o.result.map fun sendRes => (statusOf sendRes, toText o.leader)

/-- The leader had a worker at its turn exactly if there is a result, the one that
`try_send_transactions_to_address` returned for the transaction. -/
def Offer.Genuine (o : Offer W) (memoTx : Bytes) : Prop :=
  o.transactionBatch = [memoTx] ∧
    o.result = if api.contains o.cache o.leader then
      some (api.trySendTransactionsToAddress o.cache o.leader o.transactionBatch).1 else none

/-- The record of the `k`-th transaction when the leaders of `rest` still have no turn. -/
structure RecordOf (offers : List (Offer W)) (k : Nat) (b : Built) (rest : List SocketAddr)
    (record : CSVRecord) : Prop where
  leaders : (offersOf offers k).map (·.leader) ++ rest = b.sendLeaders
  genuine : ∀ o ∈ offersOf offers k, o.Genuine api b.memoTx
  made : ∃ payer signature, cyclePayer payers k = some payer ∧
    createMemoTransaction sdk (k % 2 ^ 64) b.currentSlot b.timestamp computeUnitPrice payer
      b.blockhash = some (signature, b.memoTx) ∧
    record = { sentRecord signature.toText (k % 2 ^ 64) b.currentSlot b.timestamp with
      txStatus := statuses toText (offersOf offers k) }

variable {api toText sdk payers computeUnitPrice}

theorem offersOf_append (offers : List (Offer W)) (o : Offer W) (k : Nat) :
    offersOf (offers ++ [o]) k = offersOf offers k ++ if o.tx = k then [o] else [] := by
  simp only [offersOf, List.filter_append, List.filter_singleton]
  split <;> simp [*]

/-- A turn of another transaction. -/
theorem RecordOf.other {offers : List (Offer W)} {k : Nat} {b : Built} {rest : List SocketAddr}
    {record : CSVRecord} {o : Offer W}
    (h : RecordOf api toText sdk payers computeUnitPrice offers k b rest record) (hne : o.tx ≠ k) :
    RecordOf api toText sdk payers computeUnitPrice (offers ++ [o]) k b rest record := by
  have he : offersOf (offers ++ [o]) k = offersOf offers k := by
    rw [offersOf_append, if_neg hne, List.append_nil]
  obtain ⟨hl, hg, hm⟩ := h
  exact ⟨he ▸ hl, he ▸ hg, he ▸ hm⟩

/-- The next turn of the transaction. -/
theorem RecordOf.offer {offers : List (Offer W)} {b : Built} {rest : List SocketAddr}
    {record : CSVRecord} {o : Offer W}
    (h : RecordOf api toText sdk payers computeUnitPrice offers o.tx b (o.leader :: rest) record)
    (hg : o.Genuine api b.memoTx) :
    RecordOf api toText sdk payers computeUnitPrice (offers ++ [o]) o.tx b rest
      { record with txStatus := record.txStatus ++ statuses toText [o] } := by
  have he : offersOf (offers ++ [o]) o.tx = offersOf offers o.tx ++ [o] := by
    rw [offersOf_append, if_pos rfl]
  refine ⟨?_, ?_, ?_⟩
  · rw [he, List.map_append, List.append_assoc]
    exact h.leaders
  · intro o' ho'
    rw [he, List.mem_append] at ho'
    rcases ho' with ho' | ho'
    · exact h.genuine o' ho'
    · rw [List.mem_singleton.1 ho']
      exact hg
  · obtain ⟨payer, signature, hp, ht, rfl⟩ := h.made
    refine ⟨payer, signature, hp, ht, ?_⟩
    simp only [he, statuses, List.filterMap_append]

/-- `build_tx` returned. -/
theorem RecordOf.built {offers : List (Offer W)} {k : Nat} {b : Built} {build' : BuildState}
    {id : Nat} {record : CSVRecord}
    (h : buildTx sdk payers computeUnitPrice ⟨k, k % 2 ^ 64⟩ b.currentSlot b.timestamp b.blockhash =
      some (build', id, b.memoTx, record))
    (hnew : ∀ o ∈ offers, o.tx < k) :
    RecordOf api toText sdk payers computeUnitPrice offers k b b.sendLeaders record := by
  have he : offersOf offers k = [] := by
    apply List.filter_eq_nil_iff.2
    intro o ho
    have := hnew o ho
    simp only [decide_eq_true_eq]
    omega
  obtain ⟨payer, signature, hp, ht, -, -, rfl⟩ := buildTx_spec h
  exact ⟨by rw [he]; rfl, by simp [he], payer, signature, hp, ht, by rw [he]; rfl⟩

variable (api toText) in
/-- What a turn does to the state. -/
theorem offer_spec (s : Scheduler W) (memoTx : Bytes) (record : CSVRecord) (newLeader : SocketAddr)
    (rest : List SocketAddr) : ∃ o workers, o.leader = newLeader ∧ o.tx = s.built.length - 1 ∧
      o.Genuine api memoTx ∧ s.offer api toText memoTx record newLeader rest = { s with
        phase := .sending memoTx
          { record with txStatus := record.txStatus ++ statuses toText [o] } rest
        workers := workers
        offers := s.offers ++ [o] } := by
  unfold Scheduler.offer
  by_cases hc : api.contains s.workers newLeader = true
  · rw [if_pos hc]
    refine ⟨⟨⟨newLeader, s.workers,
      some (api.trySendTransactionsToAddress s.workers newLeader [memoTx]).1⟩,
      s.built.length - 1, [memoTx]⟩, _, rfl, rfl, ⟨rfl, ?_⟩, rfl⟩
    exact (if_pos hc).symm
  · rw [if_neg hc]
    refine ⟨⟨⟨newLeader, s.workers, none⟩, s.built.length - 1, [memoTx]⟩, s.workers, rfl, rfl,
      ⟨rfl, ?_⟩, ?_⟩
    · exact (if_neg hc).symm
    · simp [statuses]

/-! ## Steps -/

variable {s s' : Scheduler W} {l : SchedulerLabel}

/-- What a step can do. -/
inductive Move (api : WorkersCache W) (toText : SocketAddr → String) (sdk : Sdk)
    (payers : List Keypair) (computeUnitPrice : Option Nat) (s : Scheduler W) :
    SchedulerLabel → Scheduler W → Prop where
  | tick {currentSlot : Nat} {connectLeaders sendLeaders : List SocketAddr}
      (hp : s.phase = .awaitingTick) :
      Move api toText sdk payers computeUnitPrice s (.tick currentSlot connectLeaders sendLeaders)
        { s with phase := .connecting currentSlot connectLeaders sendLeaders }
  | connect {currentSlot : Nat} {peer : SocketAddr} {connectLeaders sendLeaders : List SocketAddr}
      (hp : s.phase = .connecting currentSlot (peer :: connectLeaders) sendLeaders) :
      Move api toText sdk payers computeUnitPrice s .connect { s with
        phase := .connecting currentSlot connectLeaders sendLeaders
        workers := api.ensureWorker s.workers peer }
  | build {currentSlot timestamp id : Nat} {blockhash : Hash} {sendLeaders : List SocketAddr}
      {build : BuildState} {memoTx : Bytes} {record : CSVRecord}
      (hp : s.phase = .connecting currentSlot [] sendLeaders)
      (hb : buildTx sdk payers computeUnitPrice s.build currentSlot timestamp blockhash =
        some (build, id, memoTx, record)) :
      Move api toText sdk payers computeUnitPrice s (.build timestamp blockhash) { s with
        phase := .sending memoTx record sendLeaders
        build := build
        built := s.built ++ [⟨currentSlot, timestamp, blockhash, memoTx, sendLeaders⟩] }
  | panic {currentSlot timestamp : Nat} {blockhash : Hash} {sendLeaders : List SocketAddr}
      (hp : s.phase = .connecting currentSlot [] sendLeaders)
      (hb : buildTx sdk payers computeUnitPrice s.build currentSlot timestamp blockhash = none) :
      Move api toText sdk payers computeUnitPrice s (.build timestamp blockhash)
        { s with phase := .ended }
  | offer {memoTx : Bytes} {record : CSVRecord} {rest : List SocketAddr} {o : Offer W} {workers : W}
      (hp : s.phase = .sending memoTx record (o.leader :: rest)) (htx : o.tx = s.built.length - 1)
      (hg : o.Genuine api memoTx) :
      Move api toText sdk payers computeUnitPrice s .offer { s with
        phase := .sending memoTx
          { record with txStatus := record.txStatus ++ statuses toText [o] } rest
        workers := workers
        offers := s.offers ++ [o] }
  | sendRecord {memoTx : Bytes} {record : CSVRecord} {accepted : Bool}
      (hp : s.phase = .sending memoTx record []) :
      Move api toText sdk payers computeUnitPrice s (.sendRecord accepted) { s with
        phase := .awaitingTick
        cancelled := s.cancelled || !accepted
        handed := s.handed ++ [record] }
  | cancel : Move api toText sdk payers computeUnitPrice s .cancel { s with cancelled := true }
  | cancelled (hp : s.phase = .awaitingTick) (hc : s.cancelled = true) :
      Move api toText sdk payers computeUnitPrice s .cancelled { s with phase := .ended }

theorem step_move (h : schedulerStep api toText sdk payers computeUnitPrice s l = some s') :
    Move api toText sdk payers computeUnitPrice s l s' := by
  cases l with
  | tick currentSlot connectLeaders sendLeaders =>
    simp only [schedulerStep] at h
    split at h
    · cases h
      exact .tick ‹_›
    · cases h
  | connect =>
    simp only [schedulerStep] at h
    split at h
    · cases h
      exact .connect ‹_›
    · cases h
  | build timestamp blockhash =>
    simp only [schedulerStep] at h
    split at h
    · rename_i hp
      split at h
      · rename_i hb
        cases h
        exact .build hp hb
      · rename_i hb
        cases h
        exact .panic hp hb
    · cases h
  | offer =>
    simp only [schedulerStep] at h
    split at h
    · rename_i memoTx record newLeader rest hp
      obtain ⟨o, workers, rfl, htx, hg, hs⟩ :=
        offer_spec api toText s memoTx record newLeader rest
      rw [hs] at h
      cases h
      exact .offer hp htx hg
    · cases h
  | sendRecord accepted =>
    simp only [schedulerStep] at h
    split at h
    · cases h
      exact .sendRecord ‹_›
    · cases h
  | cancel =>
    cases h
    exact .cancel
  | cancelled =>
    simp only [schedulerStep] at h
    split at h
    · split at h
      · cases h
        exact .cancelled ‹_› ‹_›
      · cases h
    · cases h

/-! ## The invariant -/

theorem statusOf_eq_sent {r : SendResult} : statusOf r = .sent ↔ r = .ok () := by
  cases r with
  | ok _ => exact iff_of_true rfl rfl
  | error e => cases e <;> simp [statusOf]

variable (toText) in
/-- `tx_status` follows the turns with a worker. -/
theorem forall₂_statuses {memoTx : Bytes} : ∀ {offers : List (Offer W)},
    (∀ o ∈ offers, o.Genuine api memoTx) →
    List.Forall₂ (fun o st => st.2 = toText o.leader ∧ (st.1 = .sent ↔ o.result = some (.ok ())))
      (offers.filter fun o => api.contains o.cache o.leader) (statuses toText offers)
  | [], _ => .nil
  | o :: offers, h => by
    have ih := forall₂_statuses fun o ho => h o (List.mem_cons_of_mem _ ho)
    obtain ⟨-, hr⟩ := h o List.mem_cons_self
    by_cases hc : api.contains o.cache o.leader = true
    · rw [if_pos hc] at hr
      simp only [List.filter_cons, hc, if_true, statuses, List.filterMap_cons, hr, Option.map_some]
      refine .cons ⟨rfl, ?_⟩ ih
      rw [statusOf_eq_sent, hr, Option.some.injEq]
    · rw [if_neg hc] at hr
      simp only [List.filter_cons, hc, statuses, List.filterMap_cons, hr, Option.map_none]
      exact ih

/-- The record of the `k`-th transaction agrees with its memo, its signer and its turns. -/
structure RecordAgrees (api : WorkersCache W) (toText : SocketAddr → String) (sdk : Sdk)
    (payers : List Keypair) (computeUnitPrice : Option Nat) (k : Nat) (b : Built)
    (turns : List (Offer W)) (record : CSVRecord) : Prop where
  signed : ∃ payer signature tx, payers[k % payers.length]? = some payer ∧
    Transaction.newSignedWithPayer sdk
      (memoInstructions (Subscriber.memoText k b.currentSlot b.timestamp) computeUnitPrice)
      (sdk.pubkey payer) [payer] b.blockhash = some tx ∧
    tx.signature0 sdk = some signature ∧ sdk.serialize tx = some b.memoTx ∧
    record.signature = signature.toText
  transactionId : record.transactionId = some k
  sentSlot : record.sentSlot = some b.currentSlot
  sentTimestamp : record.sentTimestamp = some b.timestamp
  /-- each send leader gets one turn, in order -/
  leaders : turns.map (·.leader) = b.sendLeaders
  /-- a turn is an offer of the transaction exactly if the leader has a worker -/
  genuine : ∀ o ∈ turns, o.Genuine api b.memoTx
  txStatus : List.Forall₂
    (fun o st => st.2 = toText o.leader ∧ (st.1 = .sent ↔ o.result = some (.ok ())))
    (turns.filter fun o => api.contains o.cache o.leader) record.txStatus

theorem RecordOf.agrees {offers : List (Offer W)} {k : Nat} {b : Built} {record : CSVRecord}
    (h : RecordOf api toText sdk payers computeUnitPrice offers k b [] record) (hk : k < 2 ^ 64) :
    RecordAgrees api toText sdk payers computeUnitPrice k b (offersOf offers k) record := by
  obtain ⟨hl, hg, payer, signature, hp, ht, rfl⟩ := h
  rw [Nat.mod_eq_of_lt hk] at ht ⊢
  obtain ⟨tx, htx, hsignature, hwire⟩ := createMemoTransaction_spec ht
  exact ⟨⟨payer, signature, tx, hp, htx, hsignature, hwire, rfl⟩, rfl, rfl, rfl,
    by simpa using hl, hg, forall₂_statuses toText hg⟩

def leaderA : SocketAddr := ⟨[10, 0, 0, 1], 8000⟩

def leaderB : SocketAddr := ⟨[10, 0, 0, 2], 8000⟩

/-- The second leader drops its receiver in its first turn; the token is cancelled between the
offers of the second tick. -/
def cancelledRun : List SchedulerLabel :=
  [.tick 20 [leaderA, leaderB] [leaderA, leaderB, leaderB], .connect, .connect,
    .build 300 plainHash, .offer, .offer, .offer, .sendRecord true,
    .tick 21 [] [leaderB, leaderA], .build 310 plainHash, .offer, .cancel, .offer,
    .sendRecord true, .cancelled]

end TpuTools.Sender
