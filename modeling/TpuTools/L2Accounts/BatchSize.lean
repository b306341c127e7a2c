import Mathlib.Data.List.Induction
import TpuTools.Core.RunningMean
import TpuTools.L2Accounts.Attempts

/-!
# The batch size of `create_accounts` (`tools-common/src/accounts_creator.rs`)

`calculate_batch_size` asks for one account more than an attempt created on average. The
comments expect two things of it: at most `MAX_RPC_SEND_TX_BATCH` transactions are sent
concurrently, and the size converges to what the RPC node takes.

* **`batch_le_max_iff`**: the first batch is one too large as soon as more accounts than the
  limit are asked for.
* **`recovers_iff`**: from capacity `r` on, the size reaches `r` only when the mean at that
  point is not below `r - 1`: the additive step never lifts the floored mean. The number of
  accounts ranges over all naturals here; `Attempts.base_le` keeps the sizes small.
* `run_attempts`, `batch_le_mean`: the same seen in the runs of `create_accounts`.
-/
namespace TpuTools.Accounts
open Ints RunningMean

variable {sdk : Sdk} {checks : Bool} {R : Replies} {authorities : List Keypair}
  {num maxFailed balance : Nat}

/-! ## The limit -/

/-- Before the first batch every iteration fails to fetch a blockhash. -/
structure Silent (R : Replies) (maxFailed : Nat) (s : Progress) : Prop where
  errors : s.sent = [] → s.numContinuousFailedAttempts = s.iteration ∧
    ∀ i < s.iteration, (R.latestBlockhash i).isOk = false
  quiet : (∀ i < maxFailed, (R.latestBlockhash i).isOk = false) → s.sent = []

theorem Silent.init : Silent R maxFailed .init :=
  ⟨fun _ => ⟨rfl, fun i hi => absurd hi (Nat.not_lt_zero i)⟩, fun _ => rfl⟩

theorem silent_step {s s' : Progress} (hs : Silent R maxFailed s) (hgo : s.Goes num maxFailed)
    (h : createStep sdk checks R authorities num balance s = some s') :
    Silent R maxFailed s' := by
  obtain ⟨herrors, hquiet⟩ := hs
  obtain ⟨size, -, ⟨error, hhash, rfl⟩ | ⟨blockhash, batch, hhash, -, rfl⟩⟩ := createStep_spec h
  · refine ⟨fun hnil => ?_, hquiet⟩
    obtain ⟨hfailed, hall⟩ := herrors hnil
    refine ⟨by simp only [hfailed], fun i hi => ?_⟩
    rcases Nat.lt_succ_iff_lt_or_eq.1 hi with hi | rfl
    · exact hall i hi
    · rw [hhash]
      rfl
  · refine ⟨fun hnil => by simp at hnil, fun hall => ?_⟩
    obtain ⟨hfailed, -⟩ := herrors (hquiet hall)
    have hnow := hall s.iteration (hfailed ▸ hgo.2)
    rw [hhash] at hnow
    cases hnow

/-- When there are accounts to create, a batch is sent unless the first `maxFailed` blockhash
requests fail. -/
theorem sent_eq_nil_iff {p : Progress} (hpos : 0 < num)
    (h : createAccounts sdk checks R authorities num balance maxFailed = some p) :
    p.sent = [] ↔ ∀ i < maxFailed, (R.latestBlockhash i).isOk = false := by
  obtain ⟨⟨herrors, hquiet⟩, hend⟩ := createLoop_induct (P := Silent R maxFailed)
    (fun _ _ => silent_step) h .init
  refine ⟨fun hnil i hi => ?_, hquiet⟩
  obtain ⟨hfailed, hall⟩ := herrors hnil
  have hcreated : p.createdAccounts.length = 0 := by
    rw [(sentInv_run h).created, hnil]
    rfl
  refine hall i (Nat.lt_of_lt_of_le hi (Nat.le_of_not_lt fun hlt => hend ⟨?_, hfailed ▸ hlt⟩))
  rw [hcreated]
  exact hpos

/-- The first batch: one more than the limit, when so many accounts are asked for. -/
theorem first_batch {p : Progress} (hnum : num < 2 ^ 64)
    (h : createAccounts sdk checks R authorities num balance maxFailed = some p)
    (hsent : p.sent ≠ []) : ∃ x ∈ p.sent, x.2.length = min (MAX_RPC_SEND_TX_BATCH + 1) num := by
  cases hp : p.sent with
  | nil => exact absurd hp hsent
  | cons x xs =>
    refine ⟨x, List.mem_cons_self, ?_⟩
    obtain ⟨hlt, hsize⟩ := (sentInv_run h).sizes 0 x (by rw [hp]; rfl)
    simp only [List.take_zero, List.sum_nil] at hlt hsize
    rw [calculateBatchSize_eq hnum hlt, if_pos rfl, Option.some.injEq] at hsize
    omega

/-- Batches beyond the limit. -/
theorem large_batch {p : Progress} (hnum : num < 2 ^ 64) (hlarge : MAX_RPC_SEND_TX_BATCH < num)
    (h : createAccounts sdk checks R authorities num balance maxFailed = some p)
    (hhash : ∃ i < maxFailed, (R.latestBlockhash i).isOk = true) :
    ∃ x ∈ p.sent, MAX_RPC_SEND_TX_BATCH < x.2.length := by
  have hsent : p.sent ≠ [] := by
    intro hnil
    obtain ⟨i, hi, hok⟩ := hhash
    rw [(sent_eq_nil_iff (Nat.lt_of_le_of_lt (Nat.zero_le _) hlarge) h).1 hnil i hi] at hok
    cases hok
  obtain ⟨x, hx, hlen⟩ := first_batch hnum h hsent
  refine ⟨x, hx, ?_⟩
  rw [hlen]
  omega

/-- **The limit is kept only when no more accounts than the limit are asked for**, or when no
batch is ever sent. -/
theorem batch_le_max_iff (sdk : Sdk) (checks : Bool) (R : Replies) (authorities : List Keypair)
    (num balance maxFailed : Nat) (hne : authorities ≠ []) (hnum : num < 2 ^ 64) :
    ∃ p, createAccounts sdk checks R authorities num balance maxFailed = some p ∧
      ((∀ x ∈ p.sent, x.2.length ≤ MAX_RPC_SEND_TX_BATCH) ↔
        num ≤ MAX_RPC_SEND_TX_BATCH ∨
          ∀ i < maxFailed, (R.latestBlockhash i).isOk = false) := by
  obtain ⟨p, hp⟩ := createAccounts_isSome sdk checks R balance maxFailed hne hnum
  refine ⟨p, hp, ?_⟩
  constructor
  · intro hall
    rcases Nat.lt_or_ge MAX_RPC_SEND_TX_BATCH num with hlarge | hsmall
    · right
      intro i hi
      rw [← Bool.not_eq_true]
      intro hok
      obtain ⟨x, hx, hlt⟩ := large_batch hnum hlarge hp ⟨i, hi, hok⟩
      exact absurd (hall x hx) (Nat.not_le.2 hlt)
    · exact .inl hsmall
  · rintro (hsmall | hquiet) x hx
    · obtain ⟨k, hk, rfl⟩ := List.getElem_of_mem hx
      have hle := ((sentInv_run hp).size_bounds hnum (List.getElem?_eq_getElem hk)).2
      omega
    · rcases Nat.eq_zero_or_pos num with rfl | hpos
      · obtain ⟨k, hk, rfl⟩ := List.getElem_of_mem hx
        have hle := ((sentInv_run hp).size_bounds hnum (List.getElem?_eq_getElem hk)).2
        omega
      · rw [(sent_eq_nil_iff hpos hp).2 hquiet] at hx
        cases hx

/-- Three accounts stay below the limit. -/
theorem batch_le_max_three : ∃ p,
    createAccounts Sender.plainSdk true flakyReplies [Sender.plainPayer] 3 1 2 = some p ∧
      ∀ x ∈ p.sent, x.2.length ≤ MAX_RPC_SEND_TX_BATCH := by
  obtain ⟨p, hp, hiff⟩ :=
    batch_le_max_iff Sender.plainSdk true flakyReplies [Sender.plainPayer] 3 1 2
    (by decide) (by decide)
  exact ⟨p, hp, hiff.2 (.inl (by decide))⟩

/-- 65 accounts: all of them are in the first batch. -/
theorem batch_over_max : ∃ p,
    createAccounts Sender.plainSdk true flakyReplies [Sender.plainPayer] 65 1 100 = some p ∧
      ∃ x ∈ p.sent, MAX_RPC_SEND_TX_BATCH < x.2.length := by
  obtain ⟨p, hp⟩ := createAccounts_isSome Sender.plainSdk true flakyReplies 1 100
    (show [Sender.plainPayer] ≠ [] by decide) (show 65 < 2 ^ 64 by decide)
  exact ⟨p, hp, large_batch (by decide) (by decide) hp ⟨0, by decide, rfl⟩⟩

/-! ## Recovery -/

/-- The numbers of accounts created in the attempts of a run so far: each attempt confirms at
most as many as its size. -/
inductive Attempts (checks : Bool) (num : Nat) : List Nat → Prop where
  | nil : Attempts checks num []
  | snoc {h : List Nat} {size n : Nat} : Attempts checks num h → h.sum < num →
      calculateBatchSize checks num h.sum h.length = some size → n ≤ size →
        Attempts checks num (h ++ [n])

/-- From the attempts `pre` on, the RPC node confirms `r` transactions of a batch, or all. -/
inductive Capped (checks : Bool) (num r : Nat) (pre : List Nat) : List Nat → Prop where
  | start : Attempts checks num pre → Capped checks num r pre pre
  | snoc {h : List Nat} {size : Nat} : Capped checks num r pre h → h.sum < num →
      calculateBatchSize checks num h.sum h.length = some size →
        Capped checks num r pre (h ++ [min size r])

/-- The attempts `pre` can be the first ones, however many accounts are asked for. -/
def IsPrefix (checks : Bool) (pre : List Nat) : Prop := ∃ N, ∀ num ≥ N, Attempts checks num pre

/-- There is an attempt from which on the size is at least `r`, as long as so many accounts are
missing; for all large numbers of accounts it comes, and with so many missing. -/
def Recovers (checks : Bool) (r : Nat) (pre : List Nat) : Prop :=
  ∃ K N, ∀ num ≥ N,
    (∃ h, Capped checks num r pre h ∧ h.length = K ∧ h.sum + r ≤ num) ∧
    ∀ h size, Capped checks num r pre h → K ≤ h.length → h.sum + r ≤ num →
      calculateBatchSize checks num h.sum h.length = some size → r ≤ size

/-- What the size is computed from: the mean, or at first the limit. -/
def base (num : Nat) (h : List Nat) : Nat :=
  if h = [] then min num MAX_RPC_SEND_TX_BATCH else mean h

theorem size_of_base {h : List Nat} (hbase : base num h ≤ MAX_RPC_SEND_TX_BATCH + 1)
    (hle : h.sum ≤ num) : calculateBatchSize checks num h.sum h.length =
      some (min (base num h + 1) (num - h.sum)) := by
  have hif : base num h = if h.length = 0 then min num MAX_RPC_SEND_TX_BATCH
      else h.sum / h.length := by
    unfold base mean
    cases h <;> simp
  rw [hif] at hbase ⊢
  apply calculateBatchSize_of_lt hle
  unfold MAX_RPC_SEND_TX_BATCH at *
  omega

theorem mean_singleton (n : Nat) : mean [n] = n := by simp [mean]

/-- The mean stays below the first size: nothing overflows. -/
theorem Attempts.base_le {h : List Nat} (ha : Attempts checks num h) :
    base num h ≤ MAX_RPC_SEND_TX_BATCH + 1 := by
  induction ha with
  | nil =>
    unfold base
    rw [if_pos rfl]
    omega
  | @snoc h size n _ hlt hsize hn ih =>
    rw [size_of_base ih (Nat.le_of_lt hlt), Option.some.injEq] at hsize
    have hsnoc : base num (h ++ [n]) = mean (h ++ [n]) := if_neg (by simp)
    rw [hsnoc]
    rcases Decidable.em (h = []) with rfl | hne
    · have hb : base num [] = min num MAX_RPC_SEND_TX_BATCH := if_pos rfl
      rw [List.nil_append, mean_singleton]
      omega
    · have hb : base num h = mean h := if_neg hne
      exact Nat.le_trans (mean_snoc_le hne (by omega)) (hb ▸ ih)

theorem Capped.attempts {r : Nat} {pre h : List Nat} (hc : Capped checks num r pre h) :
    Attempts checks num h := by
  induction hc with
  | start ha => exact ha
  | snoc _ hlt hsize ih => exact ih.snoc hlt hsize (Nat.min_le_left _ _)

theorem Attempts.size_eq {h : List Nat} (ha : Attempts checks num h) (hle : h.sum ≤ num) :
    calculateBatchSize checks num h.sum h.length = some (min (base num h + 1) (num - h.sum)) :=
  size_of_base ha.base_le hle

/-- A mean that reaches `r` gives a size of at least `r`. -/
theorem le_size_of_reaches {r size : Nat} {h : List Nat} (hr : r ≤ MAX_RPC_SEND_TX_BATCH)
    (ha : Attempts checks num h) (hreach : Reaches r h) (hleft : h.sum + r ≤ num)
    (hsize : calculateBatchSize checks num h.sum h.length = some size) : r ≤ size := by
  rw [ha.size_eq (by omega), Option.some.injEq] at hsize
  rcases Decidable.em (h = []) with rfl | hne
  · have hb : base num [] = min num MAX_RPC_SEND_TX_BATCH := if_pos rfl
    rw [List.sum_nil] at hleft hsize
    omega
  · have hb : base num h = mean h := if_neg hne
    have hmean := (reaches_iff hne).1 hreach
    omega

theorem Capped.reaches {r : Nat} {pre h : List Nat} (hr : r ≤ MAX_RPC_SEND_TX_BATCH)
    (hreach : Reaches r pre) (hc : Capped checks num r pre h) (hleft : h.sum + r ≤ num) :
    Reaches r h := by
  induction hc with
  | start _ => exact hreach
  | @snoc h size hc _ hsize ih =>
    rw [List.sum_append, List.sum_singleton] at hleft
    have hbefore : h.sum + r ≤ num := by omega
    have hle := le_size_of_reaches hr hc.attempts (ih hbefore) hbefore hsize
    rw [Nat.min_eq_right hle]
    exact (ih hbefore).snoc (Nat.le_succ r)

/-- After the first attempt the mean never rises. -/
theorem Capped.mean_le {r : Nat} {pre h : List Nat} (hne : pre ≠ [])
    (hc : Capped checks num r pre h) : h ≠ [] ∧ mean h ≤ mean pre := by
  induction hc with
  | start _ => exact ⟨hne, Nat.le_refl _⟩
  | @snoc h size hc hlt hsize ih =>
    obtain ⟨hne', hle⟩ := ih
    rw [hc.attempts.size_eq (Nat.le_of_lt hlt), Option.some.injEq] at hsize
    have hb : base num h = mean h := if_neg hne'
    refine ⟨by simp, Nat.le_trans (mean_snoc_le hne' ?_) hle⟩
    omega

theorem not_recovers {r : Nat} {pre : List Nat} (hreach : ¬ Reaches r pre) :
    ¬ Recovers checks r pre := by
  have hne : pre ≠ [] := by
    rintro rfl
    exact hreach (Nat.le_refl 0)
  rintro ⟨K, N, h⟩
  obtain ⟨⟨h, hc, hlen, hleft⟩, hlater⟩ := h N (Nat.le_refl N)
  have hsize := hc.attempts.size_eq (show h.sum ≤ N by omega)
  have hle := hlater h _ hc (Nat.le_of_eq hlen.symm) hleft hsize
  obtain ⟨hne', hmean⟩ := hc.mean_le hne
  have hb : base N h = mean h := if_neg hne'
  rw [reaches_iff hne] at hreach
  omega

/-- **The size recovers to the capacity only from a mean that is not below it by more than
one.** -/
theorem recovers_iff (checks : Bool) (r : Nat) (pre : List Nat)
    (hr : 1 ≤ r ∧ r ≤ MAX_RPC_SEND_TX_BATCH) (hpre : IsPrefix checks pre) :
    Recovers checks r pre ↔ (r - 1) * pre.length ≤ pre.sum := by
  constructor
  · intro h
    by_contra hreach
    exact not_recovers hreach h
  · intro hreach
    obtain ⟨N, hN⟩ := hpre
    refine ⟨pre.length, max N (pre.sum + r), fun num hnum => ⟨⟨pre, ?_, rfl, ?_⟩, ?_⟩⟩
    · exact .start (hN num (Nat.le_trans (Nat.le_max_left _ _) hnum))
    · exact Nat.le_trans (Nat.le_max_right _ _) hnum
    · intro h size hc _ hleft hsize
      exact le_size_of_reaches hr.2 hc.attempts (hc.reaches hr.2 hreach hleft) hleft hsize

/-- No attempt at all is the start of every run. -/
theorem isPrefix_nil (checks : Bool) : IsPrefix checks [] := ⟨0, fun _ _ => .nil⟩

/-- With a steady RPC node from the start the size is high enough at once. -/
theorem recovers_from_start : Recovers true 64 [] :=
  (recovers_iff true 64 [] (by decide) (isPrefix_nil true)).2 (by decide)

theorem isPrefix_failed (checks : Bool) : IsPrefix checks [0] := by
  refine ⟨1, fun num hnum => ?_⟩
  have hsize := (@Attempts.nil checks num).size_eq (Nat.zero_le num)
  exact Attempts.nil.snoc (Nat.lt_of_lt_of_le Nat.zero_lt_one hnum) hsize (Nat.zero_le _)

/-- After a first batch that confirms nothing, the size never reaches two. -/
theorem stuck_after_failed_batch : IsPrefix true [0] ∧ ¬ Recovers true 2 [0] :=
  ⟨isPrefix_failed true, not_recovers (by unfold Reaches; decide)⟩

/-! ## The attempts of a run -/

/-- The attempts of a run of `create_accounts`. -/
theorem run_attempts {p : Progress}
    (h : createAccounts sdk checks R authorities num balance maxFailed = some p) :
    Attempts checks num (successes R p.sent) := by
  have hstep : ∀ s s' : Progress, SentInv checks R num s ∧ Attempts checks num (successes R s.sent) →
      s.Goes num maxFailed → createStep sdk checks R authorities num balance s = some s' →
      SentInv checks R num s' ∧ Attempts checks num (successes R s'.sent) := by
    rintro s s' ⟨hs, ha⟩ hgo hs'
    refine ⟨sentInv_step hs hgo hs', ?_⟩
    obtain ⟨size, hsize, ⟨error, -, rfl⟩ | ⟨blockhash, batch, -, hbatch, rfl⟩⟩ :=
      createStep_spec hs'
    · exact ha
    · have hlen : (successes R s.sent).length = s.sent.length := by simp [successes]
      rw [hs.attempts, hs.length_created, ← hlen] at hsize
      simp only [successes, List.map_append, List.map_cons, List.map_nil]
      refine ha.snoc (hs.length_created ▸ hgo.1) hsize ?_
      rw [← hbatch]
      exact length_confirmedIn_le (s.iteration, batch)
  exact (createLoop_induct hstep h ⟨.init, .nil⟩).1.2

theorem Attempts.of_snoc {h : List Nat} {n : Nat} (ha : Attempts checks num (h ++ [n])) :
    Attempts checks num h ∧ h.sum < num ∧
      ∃ size, calculateBatchSize checks num h.sum h.length = some size ∧ n ≤ size := by
  generalize hh : h ++ [n] = h' at ha
  cases ha with
  | nil => simp at hh
  | @snoc h0 size n0 ha hlt hsize hn =>
    obtain ⟨rfl, he⟩ := List.append_inj' hh rfl
    cases he
    exact ⟨ha, hlt, size, hsize, hn⟩

/-- Whatever is confirmed later, the mean does not rise. -/
theorem Attempts.mean_append_le {h : List Nat} (hne : h ≠ []) :
    ∀ t : List Nat, Attempts checks num (h ++ t) → mean (h ++ t) ≤ mean h := by
  intro t
  induction t using List.reverseRecOn with
  | nil => simp
  | append_singleton t n ih =>
    rw [← List.append_assoc]
    intro ha
    obtain ⟨ha', hlt, size, hsize, hn⟩ := ha.of_snoc
    have hne' : h ++ t ≠ [] := by simp [hne]
    have hb : base num (h ++ t) = mean (h ++ t) := if_neg hne'
    rw [ha'.size_eq (Nat.le_of_lt hlt), Option.some.injEq] at hsize
    exact Nat.le_trans (mean_snoc_le hne' (by omega)) (ih ha')

theorem Attempts.of_append {h : List Nat} :
    ∀ t : List Nat, Attempts checks num (h ++ t) → Attempts checks num h := by
  intro t
  induction t using List.reverseRecOn with
  | nil => simp
  | append_singleton t n ih =>
    rw [← List.append_assoc]
    exact fun ha => ih ha.of_snoc.1

/-- In every run: after `n` attempts no batch is larger than their mean and one. -/
theorem batch_le_mean {p : Progress}
    (h : createAccounts sdk checks R authorities num balance maxFailed = some p) {n k : Nat}
    {x : Nat × Batch} (hn : 0 < n) (hnk : n ≤ k) (hk : p.sent[k]? = some x) :
    x.2.length ≤ mean ((successes R p.sent).take n) + 1 := by
  have hlen : (successes R p.sent).length = p.sent.length := by simp [successes]
  have hkl := (List.getElem?_eq_some_iff.1 hk).1
  have hsplit : (successes R p.sent).take k =
      (successes R p.sent).take n ++ ((successes R p.sent).take k).drop n := by
    conv_lhs => rw [← List.take_append_drop n ((successes R p.sent).take k)]
    rw [List.take_take, Nat.min_eq_left hnk]
  have hne : (successes R p.sent).take n ≠ [] := by
    rw [← List.length_pos_iff, List.length_take]
    omega
  have hbefore : Attempts checks num ((successes R p.sent).take k) := by
    have hrun := run_attempts h
    rw [← List.take_append_drop k (successes R p.sent)] at hrun
    exact hrun.of_append _
  obtain ⟨hlt, hsize⟩ := (sentInv_run h).sizes k x hk
  have hlenk : ((successes R p.sent).take k).length = k := by
    rw [List.length_take]
    omega
  have heq := hbefore.size_eq (Nat.le_of_lt hlt)
  rw [hlenk, hsize, Option.some.injEq] at heq
  have hne' : (successes R p.sent).take k ≠ [] := by
    rw [← List.length_pos_iff, hlenk]
    omega
  have hb : base num ((successes R p.sent).take k) = mean ((successes R p.sent).take k) :=
    if_neg hne'
  have hmean := Attempts.mean_append_le hne _ (hsplit ▸ hbefore)
  rw [← hsplit] at hmean
  omega

/-- Two of three accounts in the first batch, the third in the second. -/
theorem batch_le_mean_flaky : ∃ p x,
    createAccounts Sender.plainSdk true flakyReplies [Sender.plainPayer] 3 1 2 = some p ∧
      p.sent[1]? = some x ∧ x.2.length ≤ 3 := by
  obtain ⟨p, x, hp, -, -, hx, hsuccesses⟩ := flaky_run
  have hmean : mean ((successes flakyReplies p.sent).take 1) = 2 := by
    rw [hsuccesses]
    rfl
  have hle := batch_le_mean hp Nat.one_pos (Nat.le_refl 1) hx
  rw [hmean] at hle
  exact ⟨p, x, hp, hx, hle⟩

end TpuTools.Accounts
