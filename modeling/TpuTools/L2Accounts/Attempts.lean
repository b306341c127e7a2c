import TpuTools.L2Accounts.CreateAccounts
import TpuTools.L2Sender.BuildTx

/-!
# The attempts of `create_accounts` (`tools-common/src/accounts_creator.rs`)

An attempt is an iteration that sends a batch. The batch sizes follow from the numbers of
accounts the earlier attempts created, so a run is seen here as that history of numbers
(`successes`).

* `createAccounts_isSome`: with an authority the loop neither panics nor runs forever.
* `sentInv_run`, `budget_run`: what every iteration keeps, as results about whole runs.
* **`create_accounts_exact`**: how many iterations there are, which of them send a batch, which
  accounts are returned, and how large the batches are, on all replies.
-/
namespace TpuTools.Accounts
open Ints

variable {sdk : Sdk} {checks : Bool} {R : Replies} {authorities : List Keypair}
  {num maxFailed balance : Nat}

/-! ## No iteration panics -/

theorem batchTransactions_isSome (sdk : Sdk) (blockhash : Hash) (balance : Nat)
    (newKeypair : Nat → Keypair) {n : Nat} {it : Cycle Keypair} (hne : authorities ≠ [])
    (hat : Cycle.At authorities n it) (size : Nat) :
    ∃ batch it', batchTransactions sdk blockhash balance newKeypair it size = some (batch, it') ∧
      Cycle.At authorities (n + size) it' := by
  induction size with
  | zero => exact ⟨[], it, rfl, hat⟩
  | succ size ih =>
    obtain ⟨batch, it', hb, hat'⟩ := ih
    obtain ⟨authority, it'', hn, -, hat''⟩ := hat'.next hne
    refine ⟨batch ++ [createAccountTransaction sdk authority (newKeypair size) blockhash balance],
      it'', ?_, hat''⟩
    simp only [batchTransactions, hb, hn, Option.bind_eq_bind, Option.bind_some, Option.pure_def]

theorem createStep_isSome (sdk : Sdk) (checks : Bool) (R : Replies) (balance : Nat) {s : Progress}
    (hne : authorities ≠ []) (hnum : num < 2 ^ 64) (hlt : s.createdAccounts.length < num) :
    ∃ s', createStep sdk checks R authorities num balance s = some s' := by
  simp only [createStep, calculateBatchSize_eq hnum hlt, Option.bind_eq_bind, Option.bind_some]
  split
  · exact ⟨_, rfl⟩
  · rename_i blockhash _
    obtain ⟨batch, it, hb, -⟩ := batchTransactions_isSome sdk blockhash balance
      (R.newKeypair s.iteration) hne (Cycle.At.ofList authorities)
      (min ((if s.numSendBatchAttempts = 0 then min num MAX_RPC_SEND_TX_BATCH
        else s.createdAccounts.length / s.numSendBatchAttempts) + 1)
        (num - s.createdAccounts.length))
    simp only [createTransactionBatch, hb, Option.map_some, Option.bind_some]
    exact ⟨_, rfl⟩

theorem createLoop_isSome (hne : authorities ≠ []) (hnum : num < 2 ^ 64) (s : Progress) :
    ∃ p, createLoop sdk checks R authorities num balance maxFailed s = some p := by
  induction s using createLoop.induct sdk checks R authorities num balance maxFailed with
  | case1 s hgo hnone =>
    obtain ⟨s', hs'⟩ := createStep_isSome sdk checks R balance hne hnum hgo.1
    rw [hnone] at hs'
    cases hs'
  | case2 s hgo s' hs' ih =>
    rw [createLoop_go hgo hs']
    exact ih
  | case3 s hgo => exact ⟨s, createLoop_done hgo⟩

/-- The loop ends without a panic. -/
theorem createAccounts_isSome (sdk : Sdk) (checks : Bool) (R : Replies) (balance maxFailed : Nat)
    (hne : authorities ≠ []) (hnum : num < 2 ^ 64) :
    ∃ p, createAccounts sdk checks R authorities num balance maxFailed = some p :=
  createLoop_isSome hne hnum .init

/-! ## The batches sent -/

/-- The accounts of a batch, given with its iteration, at the places where the transaction was
reported confirmed. -/
def confirmedIn (R : Replies) (x : Nat × Batch) : List Keypair :=
  (x.2.zipIdx.filter fun e => (R.sendAndConfirm x.1 e.2).isOk).map fun e => e.1.2

theorem sendTransactionBatch_eq (iteration : Nat) (batch : Batch) :
    sendTransactionBatch R iteration batch = confirmedIn R (iteration, batch) := by
  rw [sendTransactionBatch, confirmedIn, ← List.filterMap_eq_filter, List.map_filterMap]
  refine List.filterMap_congr ?_
  rintro ⟨⟨tx, keypair⟩, place⟩ -
  cases hreply : R.sendAndConfirm iteration place <;>
    simp [hreply, Except.isOk, Except.toBool]

/-- How many accounts each attempt created. -/
def successes (R : Replies) (sent : List (Nat × Batch)) : List Nat :=
  sent.map fun x => (confirmedIn R x).length

theorem length_confirmedIn_le (x : Nat × Batch) : (confirmedIn R x).length ≤ x.2.length := by
  have hcount := List.countP_le_length
    (p := fun place => (R.sendAndConfirm x.1 place).isOk) (l := List.range x.2.length)
  rw [List.length_range] at hcount
  rw [← sendTransactionBatch_eq, length_sendTransactionBatch]
  exact hcount

/-- The loop variables, told by the batches sent: batch `k` has the size computed from the
attempts before it. -/
structure SentInv (checks : Bool) (R : Replies) (num : Nat) (s : Progress) : Prop where
  created : s.createdAccounts = s.sent.flatMap (confirmedIn R)
  attempts : s.numSendBatchAttempts = s.sent.length
  once : (s.sent.map Prod.fst).Pairwise (· < ·)
  past : ∀ x ∈ s.sent, x.1 < s.iteration
  skipped : ∀ i < s.iteration, i ∈ s.sent.map Prod.fst ∨ (R.latestBlockhash i).isOk = false
  sizes : ∀ k x, s.sent[k]? = some x → ((successes R s.sent).take k).sum < num ∧
    calculateBatchSize checks num ((successes R s.sent).take k).sum k = some x.2.length

theorem SentInv.length_created {s : Progress} (h : SentInv checks R num s) :
    s.createdAccounts.length = (successes R s.sent).sum := by
  rw [h.created, List.length_flatMap, successes]

theorem SentInv.init : SentInv checks R num .init :=
  ⟨rfl, rfl, by simp [Progress.init], by simp [Progress.init],
    fun i hi => absurd hi (Nat.not_lt_zero i), by simp [Progress.init]⟩

theorem sentInv_step {s s' : Progress} (hs : SentInv checks R num s) (hgo : s.Goes num maxFailed)
    (h : createStep sdk checks R authorities num balance s = some s') :
    SentInv checks R num s' := by
  have hlen := hs.length_created
  obtain ⟨hcreated, hattempts, honce, hpast, hskipped, hsizes⟩ := hs
  obtain ⟨size, hsize, ⟨error, hhash, rfl⟩ | ⟨blockhash, batch, -, hbatch, rfl⟩⟩ :=
    createStep_spec h
  · refine ⟨hcreated, hattempts, honce, fun x hx => Nat.lt_succ_of_lt (hpast x hx), ?_, hsizes⟩
    intro i hi
    rcases Nat.lt_succ_iff_lt_or_eq.1 hi with hi | rfl
    · exact hskipped i hi
    · right
      rw [hhash]
      rfl
  · have hsucc : successes R (s.sent ++ [(s.iteration, batch)]) =
        successes R s.sent ++ [(confirmedIn R (s.iteration, batch)).length] := by
      simp [successes]
    have hsl : (successes R s.sent).length = s.sent.length := by simp [successes]
    refine ⟨?_, ?_, ?_, ?_, ?_, ?_⟩
    · simp [hcreated, sendTransactionBatch_eq]
    · simp [hattempts]
    · rw [List.map_append, List.pairwise_append]
      refine ⟨honce, by simp, ?_⟩
      intro i hi j hj
      obtain ⟨x, hx, rfl⟩ := List.mem_map.1 hi
      rw [List.mem_singleton.1 hj]
      exact hpast x hx
    · intro x hx
      rcases List.mem_append.1 hx with hx | hx
      · exact Nat.lt_succ_of_lt (hpast x hx)
      · rw [List.mem_singleton.1 hx]
        exact Nat.lt_succ_self _
    · intro i hi
      rw [List.map_append, List.mem_append]
      rcases Nat.lt_succ_iff_lt_or_eq.1 hi with hi | rfl
      · exact (hskipped i hi).imp_left .inl
      · exact .inl (.inr List.mem_cons_self)
    · intro k x hk
      rw [hsucc]
      rcases Nat.lt_or_ge k s.sent.length with hlt | hge
      · rw [List.getElem?_append_left hlt] at hk
        rw [List.take_append_of_le_length (by omega)]
        exact hsizes k x hk
      · -- the new batch is the last one
        obtain rfl : k = s.sent.length := by
          have := (List.getElem?_eq_some_iff.1 hk).1
          rw [List.length_append, List.length_singleton] at this
          omega
        rw [List.getElem?_concat_length, Option.some.injEq] at hk
        subst hk
        rw [← hsl, List.take_left, hsl, ← hlen, ← hattempts, hbatch]
        exact ⟨hgo.1, hsize⟩

theorem sentInv_run {p : Progress}
    (h : createAccounts sdk checks R authorities num balance maxFailed = some p) :
    SentInv checks R num p :=
  (createLoop_induct (fun _ _ => sentInv_step) h .init).1

/-! ## How many iterations there are -/

/-- The iterations are paid for by the accounts created and the failed attempts in a row,
which are the last iterations. -/
structure Budget (R : Replies) (num maxFailed : Nat) (s : Progress) : Prop where
  iterations : s.iteration ≤ maxFailed * s.createdAccounts.length + s.numContinuousFailedAttempts
  failed : s.numContinuousFailedAttempts ≤ maxFailed ∧ s.numContinuousFailedAttempts ≤ s.iteration
  full : num ≤ s.createdAccounts.length → s.numContinuousFailedAttempts = 0
  idle : ∀ x ∈ s.sent, s.iteration - s.numContinuousFailedAttempts ≤ x.1 → confirmedIn R x = []

theorem Budget.init : Budget R num maxFailed .init :=
  ⟨Nat.zero_le _, ⟨Nat.zero_le _, Nat.le_refl _⟩, fun _ => rfl, by simp [Progress.init]⟩

theorem budget_step {s s' : Progress} (hsent : SentInv checks R num s)
    (hs : Budget R num maxFailed s) (hgo : s.Goes num maxFailed)
    (h : createStep sdk checks R authorities num balance s = some s') :
    Budget R num maxFailed s' := by
  obtain ⟨hiter, ⟨hmax, hle⟩, hfull, hidle⟩ := hs
  obtain ⟨hnum, hfailed⟩ := hgo
  obtain ⟨size, hsize, ⟨error, -, rfl⟩ | ⟨blockhash, batch, -, hbatch, rfl⟩⟩ := createStep_spec h
  · refine ⟨by simp only; omega, ⟨hfailed, by simp only; omega⟩, fun h => ?_, ?_⟩
    · simp only at h
      omega
    · intro x hx hi
      exact hidle x hx (by simp only at hi; omega)
  · rw [sendTransactionBatch_eq]
    rcases Decidable.em (confirmedIn R (s.iteration, batch) = []) with hnil | hnil
    · simp only [hnil, List.append_nil, if_true]
      refine ⟨by simp only; omega, ⟨hfailed, by simp only; omega⟩, fun h => ?_, ?_⟩
      · simp only at h
        omega
      · intro x hx hi
        rcases List.mem_append.1 hx with hx | hx
        · exact hidle x hx (by simp only at hi; omega)
        · rw [List.mem_singleton.1 hx]
          exact hnil
    · have hpos := List.length_pos_iff.2 hnil
      simp only [hnil, if_false]
      refine ⟨?_, ⟨Nat.zero_le _, Nat.zero_le _⟩, fun _ => rfl, ?_⟩
      · have hgrow : maxFailed * (s.createdAccounts.length + 1) ≤
            maxFailed * (s.createdAccounts ++ confirmedIn R (s.iteration, batch)).length := by
          apply Nat.mul_le_mul_left
          rw [List.length_append]
          omega
        rw [Nat.mul_succ] at hgrow
        simp only
        omega
      · intro x hx hi
        simp only [Nat.sub_zero] at hi
        rcases List.mem_append.1 hx with hx | hx
        · have := hsent.past x hx
          omega
        · rw [List.mem_singleton.1 hx] at hi
          omega

theorem budget_run {p : Progress}
    (h : createAccounts sdk checks R authorities num balance maxFailed = some p) :
    Budget R num maxFailed p ∧ ¬ p.Goes num maxFailed := by
  obtain ⟨⟨-, hbudget⟩, hend⟩ := createLoop_induct
    (P := fun s => SentInv checks R num s ∧ Budget R num maxFailed s)
    (fun s s' hs hgo hs' => ⟨sentInv_step hs.1 hgo hs', budget_step hs.1 hs.2 hgo hs'⟩) h
    ⟨.init, .init⟩
  exact ⟨hbudget, hend⟩

/-- Each attempt asks for at least one account and at most the missing ones. -/
theorem SentInv.size_bounds {s : Progress} (h : SentInv checks R num s) (hnum : num < 2 ^ 64)
    {k : Nat} {x : Nat × Batch} (hk : s.sent[k]? = some x) :
    1 ≤ x.2.length ∧ x.2.length ≤ num - ((successes R s.sent).take k).sum := by
  obtain ⟨hlt, hsize⟩ := h.sizes k x hk
  rw [calculateBatchSize_eq hnum hlt, Option.some.injEq] at hsize
  omega

/-- **`create_accounts` ends, and creates what was confirmed.** For every oracle of replies:
at most `num * maxFailed` iterations, and each of them sends a batch unless its blockhash was
not fetched; batch `k` asks for between one and the missing number of accounts; the accounts
are the confirmed ones, in the order they were sent, at most `num`; and `num` of them unless
the last `maxFailed` iterations confirmed none. -/
theorem create_accounts_exact (sdk : Sdk) (checks : Bool) (R : Replies)
    (authorities : List Keypair) (num balance maxFailed : Nat) (hne : authorities ≠ [])
    (hnum : num < 2 ^ 64) :
    ∃ p, createAccounts sdk checks R authorities num balance maxFailed = some p ∧
      p.iteration ≤ num * maxFailed ∧
      (∀ k x, p.sent[k]? = some x →
        1 ≤ x.2.length ∧ x.2.length ≤ num - ((successes R p.sent).take k).sum) ∧
      (p.sent.map Prod.fst).Pairwise (· < ·) ∧
      (∀ i < p.iteration, i ∈ p.sent.map Prod.fst ∨ (R.latestBlockhash i).isOk = false) ∧
      p.createdAccounts = p.sent.flatMap (confirmedIn R) ∧
      p.createdAccounts.length ≤ num ∧
      (p.createdAccounts.length = num ∨ maxFailed ≤ p.iteration ∧
        ∀ x ∈ p.sent, p.iteration - maxFailed ≤ x.1 → confirmedIn R x = []) := by
  obtain ⟨p, hp⟩ := createAccounts_isSome sdk checks R balance maxFailed hne hnum
  have hsent := sentInv_run hp
  obtain ⟨⟨hiter, ⟨hmax, hle⟩, hfull, hidle⟩, hend⟩ := budget_run hp
  have hcreated := created_le hp
  refine ⟨p, hp, ?_, fun k x hk => hsent.size_bounds hnum hk, hsent.once, hsent.skipped,
    hsent.created, hcreated, ?_⟩
  · rcases Nat.lt_or_ge p.createdAccounts.length num with hlt | hge
    · have hgrow : maxFailed * (p.createdAccounts.length + 1) ≤ maxFailed * num :=
        Nat.mul_le_mul_left _ hlt
      rw [Nat.mul_succ] at hgrow
      rw [Nat.mul_comm num]
      omega
    · have hzero := hfull hge
      have heq : p.createdAccounts.length = num := Nat.le_antisymm hcreated hge
      rw [hzero, heq, Nat.mul_comm] at hiter
      exact hiter
  · rcases Nat.lt_or_ge p.createdAccounts.length num with hlt | hge
    · -- the loop broke on the failed attempts
      have hfailed : p.numContinuousFailedAttempts = maxFailed := by
        refine Nat.le_antisymm hmax (Nat.le_of_not_lt fun h => hend ⟨hlt, h⟩)
      rw [hfailed] at hle hidle
      exact .inr ⟨hle, hidle⟩
    · exact .inl (Nat.le_antisymm hcreated hge)

/-- All requests succeed, but the accounts at odd places are not confirmed. -/
def flakyReplies : Replies where
  minimumBalanceForRentExemption := .ok 890880
  feeBlockhash := .ok Sender.plainHash
  feeForMessage := .ok 5000
  authorityBalance := .ok 1000000000
  requestAirdrop _ := .error ⟨"airdrop"⟩
  confirmAirdrop := .ok true
  balanceAfterAirdrop := .ok 1000000000
  latestBlockhash _ := .ok Sender.plainHash
  sendAndConfirm _ place :=
    if place % 2 = 0 then .ok Sender.plainSignature else .error ⟨"dropped"⟩
  payerBalance _ := .ok 1000000000
  newKeypair _ _ := Sender.plainPayer

/-- One iteration of a run for three accounts. -/
def flakyStep : Progress → Option Progress :=
  createStep Sender.plainSdk true flakyReplies [Sender.plainPayer] 3 1

/-- Two of three accounts in the first batch, the third in the second. -/
theorem flaky_run : ∃ p x,
    createAccounts Sender.plainSdk true flakyReplies [Sender.plainPayer] 3 1 2 = some p ∧
      p.iteration = 2 ∧ p.createdAccounts.length = 3 ∧ p.sent[1]? = some x ∧
      successes flakyReplies p.sent = [2, 1] := by
  have hrun : ∃ first second x, flakyStep .init = some first ∧ flakyStep first = some second ∧
      first.Goes 3 2 ∧ ¬ second.Goes 3 2 ∧ second.iteration = 2 ∧
      second.createdAccounts.length = 3 ∧ second.sent[1]? = some x ∧
      successes flakyReplies second.sent = [2, 1] :=
    ⟨_, _, _, rfl, rfl, by decide, by decide, rfl, rfl, rfl, rfl⟩
  obtain ⟨first, second, x, h1, h2, hgoes, hends, hspec⟩ := hrun
  refine ⟨second, x, ?_, hspec⟩
  rw [createAccounts, createLoop_go (by decide) h1, createLoop_go hgoes h2, createLoop_done hends]

/-- Three accounts from one authority, in two batches. -/
theorem create_accounts_exact_flaky :
    ∃ p, createAccounts Sender.plainSdk true flakyReplies [Sender.plainPayer] 3 1 2 = some p ∧
      p.iteration ≤ 6 ∧ p.createdAccounts = p.sent.flatMap (confirmedIn flakyReplies) ∧
      0 ∈ p.sent.map Prod.fst ∧ p.createdAccounts.length = 3 := by
  obtain ⟨p, hp, hiter, -, -, hskipped, hcreated, -, -⟩ := create_accounts_exact Sender.plainSdk
    true flakyReplies [Sender.plainPayer] 3 1 2 (by decide) (by decide)
  obtain ⟨q, x, hq, htwo, hthree, -⟩ := flaky_run
  obtain rfl : p = q := Option.some.inj (hp.symm.trans hq)
  exact ⟨p, hp, hiter, hcreated, (hskipped 0 (by omega)).resolve_right (by decide), hthree⟩

end TpuTools.Accounts
