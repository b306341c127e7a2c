import TpuTools.Core.Cyclic
import TpuTools.Core.Ints
import TpuTools.L1Data.Keys

/-!
# Creating accounts (`create_accounts` in `tools-common/src/accounts_creator.rs`)

The loop sends batches of account-creation transactions until enough of them are
confirmed, or too many iterations in a row confirmed none. The replies of the RPC node are
an oracle (`Replies`): each request of a run has its reply there, so a statement about
every oracle is one about every sequence of replies. Fresh keypairs are part of it.

`none` is a panic. The loop counts iterations in `Nat`: a `usize` overflow of
`num_send_batch_attempts` would take 2^64 iterations of at least 150 ms. Vectors are
allocated as asked for. `Transaction::new` gets the two keypairs its message asks for, so it
does not panic.

* `createStep_spec`: what one iteration can do.
* `createLoop_induct`: the run rule of the loop.
* `created_confirmed`: the accounts returned are those whose transaction was confirmed.
* **`created_eq_num_iff`**: on which replies the loop creates all accounts (`Funds`).
-/
namespace TpuTools.Accounts
open Ints

/-- mirrors tools-common/src/accounts_creator.rs:26 -/
def MAX_RPC_SEND_TX_BATCH : Nat := 64

/-- mirrors tools-common/src/accounts_creator.rs:33 -/
def MAX_CONTINUOUS_FAILED_ATTEMPTS : Nat := 100

/-- An error of the RPC client. -/
structure ClientError where
  message : String
  deriving DecidableEq

/-- What the RPC node replies to each request of a run, in the order of the requests, and
the keypairs `Keypair::new()` returns. -/
structure Replies where
  minimumBalanceForRentExemption : Except ClientError Nat
  feeBlockhash : Except ClientError Hash
  feeForMessage : Except ClientError Nat
  authorityBalance : Except ClientError Nat
  /-- to an airdrop of so many lamports -/
  requestAirdrop : Nat → Except ClientError Signature
  confirmAirdrop : Except ClientError Bool
  balanceAfterAirdrop : Except ClientError Nat
  /-- to `get_latest_blockhash` in the given iteration of the loop -/
  latestBlockhash : Nat → Except ClientError Hash
  /-- to `send_and_confirm_transaction`, by iteration and place in the batch -/
  sendAndConfirm : Nat → Nat → Except ClientError Signature
  /-- to `get_balance` of the given payer in the validation -/
  payerBalance : Nat → Except ClientError Nat
  newKeypair : Nat → Nat → Keypair

abbrev Batch := List (Transaction × Keypair)

/-- The local variables of the loop. -/
structure Progress where
  createdAccounts : List Keypair
  numSendBatchAttempts : Nat
  numContinuousFailedAttempts : Nat
  /-- ghost: how many iterations there were -/
  iteration : Nat
  /-- ghost: the batches handed to `send_transaction_batch`, with their iteration -/
  sent : List (Nat × Batch)

def Progress.init : Progress := ⟨[], 0, 0, 0, []⟩

variable (sdk : Sdk) (checks : Bool) (R : Replies)

/-- mirrors tools-common/src/accounts_creator.rs:225-235 -/
def calculateBatchSize (numAccounts numCreatedAccounts numSendBatchAttempts : Nat) :
    Option Nat := do
  let meanNumSuccess :=
    if numSendBatchAttempts = 0 then min numAccounts MAX_RPC_SEND_TX_BATCH
    else numCreatedAccounts / numSendBatchAttempts
  let next ← addU64 checks meanNumSuccess 1
  let rest ← subU64 checks numAccounts numCreatedAccounts
  pure (min next rest)

/-- One transaction of a batch.
mirrors tools-common/src/accounts_creator.rs:181-198 -/
def createAccountTransaction (authority newAccount : Keypair) (blockhash : Hash)
    (balanceLamports : Nat) : Transaction × Keypair :=
  (⟨⟨[.createAccount (sdk.pubkey authority) (sdk.pubkey newAccount) balanceLamports 0],
    sdk.pubkey authority, blockhash⟩, [authority, newAccount]⟩, newAccount)

/-- The first `size` elements of the iterator chain; `none` is an empty authorities list.
mirrors tools-common/src/accounts_creator.rs:178-200 -/
def batchTransactions (blockhash : Hash) (balanceLamports : Nat) (newKeypair : Nat → Keypair)
    (authorities : Cycle Keypair) : Nat → Option (Batch × Cycle Keypair)
  | 0 => some ([], authorities)
  | size + 1 => do
    let (batch, it) ← batchTransactions blockhash balanceLamports newKeypair authorities size
    let (authority, it) ← it.next
    pure (batch ++ [createAccountTransaction sdk authority (newKeypair size) blockhash
      balanceLamports], it)

/-- mirrors tools-common/src/accounts_creator.rs:172-200 -/
def createTransactionBatch (authorities : List Keypair) (blockhash : Hash)
    (currentBatchSize balanceLamports : Nat) (newKeypair : Nat → Keypair) : Option Batch :=
  (batchTransactions sdk blockhash balanceLamports newKeypair (Cycle.ofList authorities)
    currentBatchSize).map Prod.fst

/-- The accounts of the batch whose transactions are reported confirmed.
mirrors tools-common/src/accounts_creator.rs:202-221 -/
def sendTransactionBatch (iteration : Nat) (transactionBatch : Batch) : List Keypair :=
  transactionBatch.zipIdx.filterMap fun ((_, accountKeypair), place) =>
    match R.sendAndConfirm iteration place with
    | .ok _ => some accountKeypair
    | .error _ => none

/-- The body of the loop after its two checks.
mirrors tools-common/src/accounts_creator.rs:266-294 -/
def createStep (authorities : List Keypair) (numAccounts balanceLamports : Nat) (s : Progress) :
    Option Progress := do
  let currentBatchSize ← calculateBatchSize checks numAccounts s.createdAccounts.length
    s.numSendBatchAttempts
  match R.latestBlockhash s.iteration with
  | .error _ =>
    pure { s with
      numContinuousFailedAttempts := s.numContinuousFailedAttempts + 1
      iteration := s.iteration + 1 }
  | .ok blockhash =>
    let transactionBatch ← createTransactionBatch sdk authorities blockhash currentBatchSize
      balanceLamports (R.newKeypair s.iteration)
    let newlyCreatedAccounts := sendTransactionBatch R s.iteration transactionBatch
    pure
      { createdAccounts := s.createdAccounts ++ newlyCreatedAccounts
        numSendBatchAttempts := s.numSendBatchAttempts + 1
        numContinuousFailedAttempts :=
          if newlyCreatedAccounts = [] then s.numContinuousFailedAttempts + 1 else 0
        iteration := s.iteration + 1
        sent := s.sent ++ [(s.iteration, transactionBatch)] }

variable {sdk checks R}

/-- The size, when the mean does not overflow. -/
theorem calculateBatchSize_of_lt {num created attempts : Nat} (h : created ≤ num)
    (hmean : (if attempts = 0 then min num MAX_RPC_SEND_TX_BATCH else created / attempts) + 1 <
      2 ^ 64) : calculateBatchSize checks num created attempts = some
      (min ((if attempts = 0 then min num MAX_RPC_SEND_TX_BATCH else created / attempts) + 1)
        (num - created)) := by
  simp only [calculateBatchSize, addU64_of_lt checks hmean, subU64_of_le checks h,
    Option.bind_eq_bind, Option.bind_some, Option.pure_def]

theorem calculateBatchSize_eq {num created attempts : Nat} (hnum : num < 2 ^ 64)
    (h : created < num) : calculateBatchSize checks num created attempts = some
      (min ((if attempts = 0 then min num MAX_RPC_SEND_TX_BATCH else created / attempts) + 1)
        (num - created)) := by
  have hdiv : created / attempts ≤ created := Nat.div_le_self _ _
  apply calculateBatchSize_of_lt (Nat.le_of_lt h)
  unfold MAX_RPC_SEND_TX_BATCH
  split <;> omega

/-- A batch never asks for more accounts than are missing. -/
theorem calculateBatchSize_le {num created attempts size : Nat} (h : created < num)
    (hsize : calculateBatchSize checks num created attempts = some size) :
    size ≤ num - created := by
  simp only [calculateBatchSize, subU64_of_le checks (Nat.le_of_lt h), Option.bind_eq_bind,
    Option.bind_some, Option.pure_def, Option.bind_eq_some_iff, Option.some.injEq] at hsize
  obtain ⟨next, -, rfl⟩ := hsize
  exact Nat.min_le_right _ _

theorem batchTransactions_length {blockhash : Hash} {balance : Nat} {newKeypair : Nat → Keypair}
    {it : Cycle Keypair} : ∀ {size : Nat} {batch : Batch} {it' : Cycle Keypair},
      batchTransactions sdk blockhash balance newKeypair it size = some (batch, it') →
      batch.length = size
  | 0, batch, it', h => by cases h; rfl
  | size + 1, batch, it', h => by
    simp only [batchTransactions, Option.bind_eq_bind, Option.bind_eq_some_iff,
      Option.pure_def, Option.some.injEq, Prod.mk.injEq] at h
    obtain ⟨⟨batch0, it0⟩, h0, ⟨authority, it1⟩, -, rfl, -⟩ := h
    simp [batchTransactions_length h0]

theorem createTransactionBatch_length {authorities : List Keypair} {blockhash : Hash}
    {size balance : Nat} {newKeypair : Nat → Keypair} {batch : Batch}
    (h : createTransactionBatch sdk authorities blockhash size balance newKeypair = some batch) :
    batch.length = size := by
  obtain ⟨⟨batch0, it⟩, h0, rfl⟩ := Option.map_eq_some_iff.1 h
  exact batchTransactions_length h0

/-- What one iteration can do: the blockhash is not fetched, or a batch is sent. -/
theorem createStep_spec {authorities : List Keypair} {num balance : Nat} {s s' : Progress}
    (h : createStep sdk checks R authorities num balance s = some s') :
    ∃ size, calculateBatchSize checks num s.createdAccounts.length s.numSendBatchAttempts =
        some size ∧
      ((∃ error, R.latestBlockhash s.iteration = .error error ∧
        s' = { s with
          numContinuousFailedAttempts := s.numContinuousFailedAttempts + 1
          iteration := s.iteration + 1 }) ∨
      ∃ blockhash batch, R.latestBlockhash s.iteration = .ok blockhash ∧ batch.length = size ∧
        s' =
          { createdAccounts := s.createdAccounts ++ sendTransactionBatch R s.iteration batch
            numSendBatchAttempts := s.numSendBatchAttempts + 1
            numContinuousFailedAttempts :=
              if sendTransactionBatch R s.iteration batch = [] then
                s.numContinuousFailedAttempts + 1
              else 0
            iteration := s.iteration + 1
            sent := s.sent ++ [(s.iteration, batch)] }) := by
  simp only [createStep, Option.bind_eq_bind, Option.bind_eq_some_iff] at h
  obtain ⟨size, hsize, h⟩ := h
  refine ⟨size, hsize, ?_⟩
  split at h
  · rename_i error hhash
    cases h
    exact .inl ⟨error, hhash, rfl⟩
  · rename_i blockhash hhash
    obtain ⟨batch, hbatch, h⟩ := Option.bind_eq_some_iff.1 h
    cases h
    exact .inr ⟨blockhash, batch, hhash, createTransactionBatch_length hbatch, rfl⟩

/-! ## The loop -/

/-- The loop goes on: the `while` condition, and the check after it does not break. -/
def Progress.Goes (s : Progress) (numAccounts maxFailedAttempts : Nat) : Prop :=
  s.createdAccounts.length < numAccounts ∧ s.numContinuousFailedAttempts < maxFailedAttempts

instance (s : Progress) (numAccounts maxFailedAttempts : Nat) :
    Decidable (s.Goes numAccounts maxFailedAttempts) :=
  inferInstanceAs (Decidable (_ ∧ _))

/-- An iteration creates accounts, or the failed attempts in a row grow. -/
theorem createStep_decreases {authorities : List Keypair} {num maxFailed balance : Nat}
    {s s' : Progress} (hgo : s.Goes num maxFailed)
    (h : createStep sdk checks R authorities num balance s = some s') :
    Prod.Lex (· < ·) (· < ·)
      (num - s'.createdAccounts.length, maxFailed - s'.numContinuousFailedAttempts)
      (num - s.createdAccounts.length, maxFailed - s.numContinuousFailedAttempts) := by
  obtain ⟨hnum, hfailed⟩ := hgo
  obtain ⟨size, -, ⟨error, -, rfl⟩ | ⟨blockhash, batch, -, -, rfl⟩⟩ := createStep_spec h
  · apply Prod.Lex.right
    simp only
    omega
  · simp only [List.length_append]
    split
    · rename_i hnil
      simp only [hnil, List.length_nil, Nat.add_zero]
      apply Prod.Lex.right
      omega
    · rename_i hne
      have hpos := List.length_pos_iff.2 hne
      apply Prod.Lex.left
      omega

variable (sdk checks R) in
/-- mirrors tools-common/src/accounts_creator.rs:237-297 -/
def createLoop (authorities : List Keypair) (numAccounts balanceLamports maxFailedAttempts : Nat)
    (s : Progress) : Option Progress :=
  if _hgo : s.Goes numAccounts maxFailedAttempts then
    match _hstep : createStep sdk checks R authorities numAccounts balanceLamports s with
    | none => none
    | some s' => createLoop authorities numAccounts balanceLamports maxFailedAttempts s'
  else some s
termination_by (numAccounts - s.createdAccounts.length,
  maxFailedAttempts - s.numContinuousFailedAttempts)
decreasing_by exact createStep_decreases _hgo _hstep

variable (sdk checks R) in
/-- The accounts are the `createdAccounts` of the result; the rest of it is ghost.
mirrors tools-common/src/accounts_creator.rs:237-297 -/
def createAccounts (authorities : List Keypair)
    (numAccounts balanceLamports maxContinuosFailedAttempts : Nat) : Option Progress :=
  createLoop sdk checks R authorities numAccounts balanceLamports maxContinuosFailedAttempts
    .init

section Loop

variable {authorities : List Keypair} {num maxFailed balance : Nat}

theorem createLoop_go {s s' : Progress} (hgo : s.Goes num maxFailed)
    (h : createStep sdk checks R authorities num balance s = some s') :
    createLoop sdk checks R authorities num balance maxFailed s =
      createLoop sdk checks R authorities num balance maxFailed s' := by
  rw [createLoop, dif_pos hgo]
  split
  · rename_i hnone
    rw [h] at hnone
    cases hnone
  · rename_i s'' hs''
    rw [h] at hs''
    cases hs''
    rfl

theorem createLoop_done {s : Progress} (hgo : ¬ s.Goes num maxFailed) :
    createLoop sdk checks R authorities num balance maxFailed s = some s := by
  rw [createLoop, dif_neg hgo]

/-- The run rule: what every iteration keeps holds when the loop ends, and then the loop
has a reason to end. -/
theorem createLoop_induct {P : Progress → Prop}
    (hstep : ∀ s s', P s → s.Goes num maxFailed →
      createStep sdk checks R authorities num balance s = some s' → P s')
    {s t : Progress} (h : createLoop sdk checks R authorities num balance maxFailed s = some t)
    (hs : P s) : P t ∧ ¬ t.Goes num maxFailed := by
  induction s using createLoop.induct sdk checks R authorities num balance maxFailed with
  | case1 s hgo hnone =>
    rw [createLoop, dif_pos hgo] at h
    split at h
    · cases h
    · rename_i s' hs'
      rw [hnone] at hs'
      cases hs'
  | case2 s hgo s' hs' ih =>
    rw [createLoop_go hgo hs'] at h
    exact ih h (hstep s s' hs hgo hs')
  | case3 s hgo =>
    rw [createLoop_done hgo] at h
    cases h
    exact ⟨hs, hgo⟩

/-! ## Which accounts are created -/

/-- The node confirmed the transaction that creates the account of `keypair`. -/
def Confirmed (R : Replies) (sent : List (Nat × Batch)) (keypair : Keypair) : Prop :=
  ∃ iteration batch place tx, (iteration, batch) ∈ sent ∧ batch[place]? = some (tx, keypair) ∧
    (R.sendAndConfirm iteration place).isOk = true

theorem mem_sendTransactionBatch {iteration : Nat} {batch : Batch} {k : Keypair} :
    k ∈ sendTransactionBatch R iteration batch ↔ ∃ place tx, batch[place]? = some (tx, k) ∧
      (R.sendAndConfirm iteration place).isOk = true := by
  simp only [sendTransactionBatch, List.mem_filterMap, Prod.exists]
  constructor
  · rintro ⟨tx, k', place, hmem, h⟩
    have hget : batch[place]? = some (tx, k') := List.mem_zipIdx_iff_getElem?.1 hmem
    cases hreply : R.sendAndConfirm iteration place with
    | error e => simp [hreply] at h
    | ok signature =>
      simp only [hreply, Option.some.injEq] at h
      subst h
      exact ⟨place, tx, hget, by rw [hreply]; rfl⟩
  · rintro ⟨place, tx, hget, hok⟩
    refine ⟨tx, k, place, List.mem_zipIdx_iff_getElem?.2 hget, ?_⟩
    cases hreply : R.sendAndConfirm iteration place with
    | error e => rw [hreply] at hok; cases hok
    | ok signature => rfl

theorem confirmed_append {sent : List (Nat × Batch)} {iteration : Nat} {batch : Batch}
    {k : Keypair} : Confirmed R (sent ++ [(iteration, batch)]) k ↔
      Confirmed R sent k ∨ k ∈ sendTransactionBatch R iteration batch := by
  rw [mem_sendTransactionBatch]
  constructor
  · rintro ⟨i, b, place, tx, hmem, h⟩
    rcases List.mem_append.1 hmem with hmem | hmem
    · exact .inl ⟨i, b, place, tx, hmem, h⟩
    · cases List.mem_singleton.1 hmem
      exact .inr ⟨place, tx, h⟩
  · rintro (⟨i, b, place, tx, hmem, h⟩ | ⟨place, tx, h⟩)
    · exact ⟨i, b, place, tx, List.mem_append_left _ hmem, h⟩
    · exact ⟨iteration, batch, place, tx,
        List.mem_append_right _ (List.mem_singleton.2 rfl), h⟩

/-- The accounts created are those whose transaction was confirmed. -/
theorem created_confirmed {p : Progress}
    (h : createAccounts sdk checks R authorities num balance maxFailed = some p) (k : Keypair) :
    k ∈ p.createdAccounts ↔ Confirmed R p.sent k := by
  have hstep : ∀ s s' : Progress, (∀ k, k ∈ s.createdAccounts ↔ Confirmed R s.sent k) →
      s.Goes num maxFailed → createStep sdk checks R authorities num balance s = some s' →
      ∀ k, k ∈ s'.createdAccounts ↔ Confirmed R s'.sent k := by
    intro s s' hs _ hs' k
    obtain ⟨size, -, ⟨error, -, rfl⟩ | ⟨blockhash, batch, -, -, rfl⟩⟩ := createStep_spec hs'
    · exact hs k
    · rw [List.mem_append, confirmed_append, hs k]
  exact (createLoop_induct hstep h fun k => by simp [Progress.init, Confirmed]).1 k

/-! ## How many accounts are created -/

/-- How many transactions of a batch of the given size are confirmed. -/
def confirmedCount (R : Replies) (iteration size : Nat) : Nat :=
  (List.range size).countP fun place => (R.sendAndConfirm iteration place).isOk

theorem length_sendTransactionBatch (iteration : Nat) (batch : Batch) :
    (sendTransactionBatch R iteration batch).length =
      confirmedCount R iteration batch.length := by
  have key : ∀ (batch : Batch) (first : Nat),
      ((batch.zipIdx first).filterMap fun ((_, accountKeypair), place) =>
        match R.sendAndConfirm iteration place with
        | .ok _ => some accountKeypair
        | .error _ => none).length =
      (List.range' first batch.length).countP fun place =>
        (R.sendAndConfirm iteration place).isOk := by
    intro batch
    induction batch with
    | nil => exact fun _ => rfl
    | cons tx batch ih =>
      intro first
      rw [List.zipIdx_cons, List.length_cons, List.range'_succ, List.countP_cons, ← ih]
      cases hreply : R.sendAndConfirm iteration first <;> simp [hreply, Except.isOk, Except.toBool]
  rw [sendTransactionBatch, key, confirmedCount, List.range_eq_range']

/-- Never more accounts are created than were asked for. -/
theorem created_le {p : Progress}
    (h : createAccounts sdk checks R authorities num balance maxFailed = some p) :
    p.createdAccounts.length ≤ num := by
  refine (createLoop_induct (P := fun s => s.createdAccounts.length ≤ num) ?_ h
    (Nat.zero_le _)).1
  intro s s' hs hgo hs'
  obtain ⟨size, hsize, ⟨error, -, rfl⟩ | ⟨blockhash, batch, -, hlen, rfl⟩⟩ := createStep_spec hs'
  · exact hs
  · have hle := calculateBatchSize_le hgo.1 hsize
    have hcount : confirmedCount R s.iteration batch.length ≤ batch.length := by
      have := List.countP_le_length (p := fun place => (R.sendAndConfirm s.iteration place).isOk)
        (l := List.range batch.length)
      simpa [confirmedCount] using this
    have hgo := hgo.1
    rw [List.length_append, length_sendTransactionBatch]
    omega

/-- The counters of the loop. -/
structure Counts where
  created : Nat
  attempts : Nat
  failed : Nat
  deriving DecidableEq

def Progress.counts (s : Progress) : Counts :=
  ⟨s.createdAccounts.length, s.numSendBatchAttempts, s.numContinuousFailedAttempts⟩

variable (checks R num) in
/-- What an iteration makes of the counters, on the replies alone. -/
def Counts.next (iteration : Nat) (c : Counts) : Option Counts := do
  let size ← calculateBatchSize checks num c.created c.attempts
  match R.latestBlockhash iteration with
  | .error _ => pure { c with failed := c.failed + 1 }
  | .ok _ =>
    let confirmed := confirmedCount R iteration size
    pure ⟨c.created + confirmed, c.attempts + 1, if confirmed = 0 then c.failed + 1 else 0⟩

variable (checks R num) in
/-- The counters after so many iterations. -/
def countsAt : Nat → Option Counts
  | 0 => some ⟨0, 0, 0⟩
  | i + 1 => (countsAt i).bind (Counts.next checks R num i)

/-- The replies let all accounts be created: `num` are confirmed before the failed
attempts in a row reach `maxFailed`. -/
def Funds (checks : Bool) (R : Replies) (num maxFailed : Nat) : Prop :=
  ∃ i c, countsAt checks R num i = some c ∧ num ≤ c.created ∧
    ∀ j < i, ∀ d, countsAt checks R num j = some d → d.created < num ∧ d.failed < maxFailed

theorem createStep_counts {s s' : Progress}
    (h : createStep sdk checks R authorities num balance s = some s') :
    Counts.next checks R num s.iteration s.counts = some s'.counts ∧
      s'.iteration = s.iteration + 1 := by
  obtain ⟨size, hsize, ⟨error, hhash, rfl⟩ | ⟨blockhash, batch, hhash, hlen, rfl⟩⟩ :=
    createStep_spec h
  · refine ⟨?_, rfl⟩
    simp [Counts.next, Progress.counts, hsize, hhash]
  · refine ⟨?_, rfl⟩
    have hcount := length_sendTransactionBatch (R := R) s.iteration batch
    rw [hlen] at hcount
    simp [Counts.next, Progress.counts, hsize, hhash, ← hcount, List.length_eq_zero_iff]

/-- The loop after some iterations: its counters are those of the replies, and it went on
in each iteration before. -/
structure Counted (checks : Bool) (R : Replies) (num maxFailed : Nat) (s : Progress) : Prop where
  now : countsAt checks R num s.iteration = some s.counts
  before : ∀ j < s.iteration, ∀ d, countsAt checks R num j = some d →
    d.created < num ∧ d.failed < maxFailed

theorem counted_step {s s' : Progress} (hs : Counted checks R num maxFailed s)
    (hgo : s.Goes num maxFailed)
    (h : createStep sdk checks R authorities num balance s = some s') :
    Counted checks R num maxFailed s' := by
  obtain ⟨hnext, hi⟩ := createStep_counts h
  refine ⟨?_, ?_⟩
  · rw [hi, countsAt, hs.now, Option.bind_some, hnext]
  · intro j hj d hd
    rw [hi] at hj
    rcases Nat.lt_succ_iff_lt_or_eq.1 hj with hj | rfl
    · exact hs.before j hj d hd
    · rw [hs.now] at hd
      cases hd
      exact hgo

/-- **The loop creates all accounts on exactly the replies that let it.** -/
theorem created_eq_num_iff {p : Progress}
    (h : createAccounts sdk checks R authorities num balance maxFailed = some p) :
    num ≤ p.createdAccounts.length ↔ Funds checks R num maxFailed := by
  obtain ⟨⟨hnow, hbefore⟩, hend⟩ :=
    createLoop_induct (P := Counted checks R num maxFailed) (fun _ _ => counted_step) h
      ⟨rfl, fun j hj => absurd hj (Nat.not_lt_zero j)⟩
  constructor
  · intro hnum
    exact ⟨p.iteration, p.counts, hnow, hnum, hbefore⟩
  · rintro ⟨i, c, hc, hnum, hgoes⟩
    rcases Nat.lt_trichotomy i p.iteration with hi | rfl | hi
    · have hlt := (hbefore i hi c hc).1
      omega
    · rw [hnow] at hc
      cases hc
      exact hnum
    · exact absurd (hgoes _ hi _ hnow) hend

end Loop

end TpuTools.Accounts
