import TpuTools.L2Accounts.AccountsCreator
import TpuTools.L2Accounts.Attempts

/-!
# Balances and what they are compared with (`accounts_creator.rs`, `accounts_file.rs`)

`validate_payers` compares balances that `get_balance` reports in lamports as if they were
SOL. `ensure_authority_balance` compares the authority's balance with a product that a
release build computes modulo `2^64`.

* **`validate_payers_iff`**: the verdict is right exactly when no payer of a list that passes is
  in the gap between the two units.
* `ensure_ok_iff`, `told_of_ok`: when the balance is accepted, and what was reported then.
* **`authority_balance_iff`**: the balance then suffices exactly when the product fits.
-/
namespace TpuTools.Accounts
open Ints

/-! ## The payers' balances -/

/-- Below the desired balance, but not when read as SOL. -/
def InGap (desiredBalanceLamports balance : Nat) : Prop :=
  balance < desiredBalanceLamports ∧ desiredBalanceLamports ≤ balance * LAMPORTS_PER_SOL

/-- The product saturates at a value no desired balance exceeds. -/
theorem le_saturatingMul {desired a b : Nat} (h : desired ≤ U64_MAX) :
    desired ≤ saturatingMul a b ↔ desired ≤ a * b := by
  unfold saturatingMul
  omega

theorem accepted_iff {R : Replies} {desired i balance : Nat} (hd : desired ≤ U64_MAX)
    (hreply : R.payerBalance i = .ok balance) :
    Accepted R desired i ↔ desired ≤ balance * LAMPORTS_PER_SOL := by
  unfold Accepted
  simp only [hreply, Except.ok.injEq, le_saturatingMul hd]
  constructor
  · rintro ⟨b, rfl, h⟩
    exact h
  · exact fun h => ⟨balance, rfl, h⟩

theorem le_mul_lamports {desired balance : Nat} (h : desired ≤ balance) :
    desired ≤ balance * LAMPORTS_PER_SOL :=
  Nat.le_trans h (Nat.le_mul_of_pos_right _ (by decide))

/-- **The validation judges the balances right, unless it accepts one in the gap.** -/
theorem validate_payers_iff (R : Replies) (accounts : AccountsFile) (desiredNum desired : Nat)
    (balance : Nat → Nat) (hd : desired ≤ U64_MAX)
    (hreply : ∀ i < accounts.payers.length, R.payerBalance i = .ok (balance i)) :
    (validatePayers R accounts desiredNum desired = .ok true ↔
        desiredNum ≤ accounts.payers.length ∧
          ∀ i < accounts.payers.length, desired ≤ balance i) ↔
      accounts.payers.length < desiredNum ∨
        (∃ i < accounts.payers.length, balance i * LAMPORTS_PER_SOL < desired) ∨
        ∀ i < accounts.payers.length, ¬ InGap desired (balance i) := by
  have hall : (∀ i < accounts.payers.length, Accepted R desired i) ↔
      ∀ i < accounts.payers.length, desired ≤ balance i * LAMPORTS_PER_SOL :=
    forall₂_congr fun i hi => accepted_iff hd (hreply i hi)
  rw [validatePayers_iff, hall]
  constructor
  · intro h
    by_contra hnot
    simp only [not_or, not_lt, not_exists, not_and, not_forall, not_not] at hnot
    obtain ⟨hnum, hpass, i, hi, hgap⟩ := hnot
    exact absurd ((h.1 ⟨hnum, hpass⟩).2 i hi) (Nat.not_le.2 hgap.1)
  · rintro (hshort | ⟨i, hi, hlow⟩ | hgap)
    · exact iff_of_false (fun h => absurd h.1 (Nat.not_le.2 hshort))
        fun h => absurd h.1 (Nat.not_le.2 hshort)
    · refine iff_of_false (fun h => absurd (h.2 i hi) (Nat.not_le.2 hlow)) fun h => ?_
      exact absurd (le_mul_lamports (h.2 i hi)) (Nat.not_le.2 hlow)
    · refine and_congr_right fun _ => forall₂_congr fun i hi => ⟨fun h => ?_, le_mul_lamports⟩
      exact Nat.le_of_not_lt fun hlt => hgap i hi ⟨hlt, h⟩

/-- A payer with one lamport, when one lamport is desired. -/
theorem validate_payers_one :
    validatePayers { flakyReplies with payerBalance := fun _ => .ok 1 } ⟨[Sender.plainPayer]⟩ 1 1 =
      .ok true := by
  refine ((validate_payers_iff { flakyReplies with payerBalance := fun _ => .ok 1 }
    ⟨[Sender.plainPayer]⟩ 1 1 (fun _ => 1) (by decide) fun _ _ => rfl).2 (.inr (.inr ?_))).2 ?_
  · intro i _ hgap
    exact absurd hgap.1 (Nat.lt_irrefl 1)
  · exact ⟨Nat.le_refl 1, fun _ _ => Nat.le_refl 1⟩

/-- A payer with one lamport passes for one with a SOL. -/
theorem underfunded_payer :
    validatePayers { flakyReplies with payerBalance := fun _ => .ok 1 } ⟨[Sender.plainPayer]⟩ 1
      LAMPORTS_PER_SOL = .ok true ∧ ¬ LAMPORTS_PER_SOL ≤ 1 := by
  decide

/-! ## The authority's balance -/

/-- What `get_balance` reports after the airdrop, if the run gets there. -/
def airdropTold (R : Replies) (requiredBalance actualBalance : Nat) : List Nat :=
  match R.requestAirdrop (requiredBalance - actualBalance), R.confirmAirdrop,
    R.balanceAfterAirdrop with
  | .ok _, .ok _, .ok balance => [balance]
  | _, _, _ => []

/-- The balances `get_balance` reports to `ensure_authority_balance`, in order.
mirrors tools-common/src/accounts_creator.rs:90-125 -/
def AccountsCreator.told (env : Env) (c : AccountsCreator) : List Nat :=
  match requestCreateAccountTxFee env.replies, env.replies.authorityBalance with
  | .ok fee, .ok actualBalance =>
    match (addU64 env.checks fee c.payerAccountBalanceLamports).bind
        (mulU64 env.checks c.numPayers) with
    | none => []
    | some requiredBalance =>
      actualBalance :: (if requiredBalance ≤ actualBalance then []
        else airdropTold env.replies requiredBalance actualBalance)
  | _, _ => []

/-- The replies make the check accept a requirement of so many lamports. -/
def Covered (R : Replies) (requiredBalance : Nat) : Prop :=
  ∃ actualBalance, R.authorityBalance = .ok actualBalance ∧
    (requiredBalance ≤ actualBalance ∨
      (∃ sig, R.requestAirdrop (requiredBalance - actualBalance) = .ok sig) ∧
        (∃ confirmed, R.confirmAirdrop = .ok confirmed) ∧
        ∃ balance, R.balanceAfterAirdrop = .ok balance ∧ requiredBalance ≤ balance)

/-- How the airdrop ends well, and what the authority's balance is then. -/
theorem airdrop_ok_iff {R : Replies} {required actual : Nat} :
    airdrop R required actual = .ok () ↔
      (∃ sig, R.requestAirdrop (required - actual) = .ok sig) ∧
        (∃ confirmed, R.confirmAirdrop = .ok confirmed) ∧
        ∃ balance, R.balanceAfterAirdrop = .ok balance ∧ required ≤ balance := by
  unfold airdrop
  split
  · rename_i h; simp [h]
  · rename_i h; simp [h]
  · rename_i h; simp [h]
  · rename_i sig confirmed balance h1 h2 h3
    simp only [h1, h2, h3, Except.ok.injEq, exists_eq', true_and, exists_eq_left']
    split
    · rename_i hlt
      simp [Nat.not_le.2 hlt]
    · rename_i hge
      simpa using hge

theorem airdropTold_of_ok {R : Replies} {required actual : Nat}
    (h : airdrop R required actual = .ok ()) :
    ∃ balance, airdropTold R required actual = [balance] ∧
      R.balanceAfterAirdrop = .ok balance ∧ required ≤ balance := by
  obtain ⟨⟨sig, h1⟩, ⟨confirmed, h2⟩, balance, h3, hle⟩ := airdrop_ok_iff.1 h
  exact ⟨balance, by simp only [airdropTold, h1, h2, h3], h3, hle⟩

section Authority

variable (env : Env) {c : AccountsCreator} {fee required : Nat}

/-- The check accepts what the replies cover. -/
theorem ensure_ok_iff (hfee : requestCreateAccountTxFee env.replies = .ok fee)
    (hreq : (addU64 env.checks fee c.payerAccountBalanceLamports).bind
      (mulU64 env.checks c.numPayers) = some required) :
    c.ensureAuthorityBalance env = some (.ok ()) ↔ Covered env.replies required := by
  obtain ⟨minBalance, hadd, hmul⟩ := Option.bind_eq_some_iff.1 hreq
  simp only [AccountsCreator.ensureAuthorityBalance, hfee, hadd, hmul, Option.bind_eq_bind,
    Option.bind_some, Option.pure_def, Covered]
  cases hactual : env.replies.authorityBalance with
  | error error => simp
  | ok actual =>
    simp only [Except.ok.injEq, exists_eq_left']
    split
    · rename_i hle
      simp [hle]
    · rename_i hlt
      simp only [Option.some.injEq, airdrop_ok_iff, hlt, false_or]

/-- When it accepts, the last balance told covers the requirement. -/
theorem told_of_ok (hfee : requestCreateAccountTxFee env.replies = .ok fee)
    (hreq : (addU64 env.checks fee c.payerAccountBalanceLamports).bind
      (mulU64 env.checks c.numPayers) = some required)
    (h : c.ensureAuthorityBalance env = some (.ok ())) :
    ∃ last, (c.told env).getLast? = some last ∧ required ≤ last ∧
      (env.replies.authorityBalance = .ok last ∨ env.replies.balanceAfterAirdrop = .ok last) := by
  rw [ensure_ok_iff env hfee hreq] at h
  obtain ⟨actual, hactual, hcov⟩ := h
  simp only [AccountsCreator.told, hfee, hactual, hreq]
  split
  · rename_i hle
    exact ⟨actual, rfl, hle, .inl rfl⟩
  · rename_i hlt
    obtain ⟨balance, htold, hafter, hle⟩ :=
      airdropTold_of_ok (airdrop_ok_iff.2 (hcov.resolve_left hlt))
    exact ⟨balance, by rw [htold]; rfl, hle, .inr hafter⟩

end Authority

/-- The requirement of a release build. -/
theorem required_wrap (c : AccountsCreator) (fee : Nat) :
    (addU64 false fee c.payerAccountBalanceLamports).bind (mulU64 false c.numPayers) =
      some (c.numPayers * (fee + c.payerAccountBalanceLamports) % 2 ^ 64) := by
  rw [addU64_wrap, Option.bind_some, mulU64_wrap, Nat.mul_mod_mod]

/-- **A release build lets the run start with enough balance exactly when the product of
payers and balance fits in `u64`**, or the balance does not even cover the wrapped product. -/
theorem authority_balance_iff (R : Replies) (timestamp : String) (c : AccountsCreator)
    (hactual : ∀ b, R.authorityBalance = .ok b → b < 2 ^ 64)
    (hafter : ∀ b, R.balanceAfterAirdrop = .ok b → b < 2 ^ 64) :
    (c.ensureAuthorityBalance ⟨R, timestamp, false⟩ = some (.ok ()) →
        ∃ fee last, requestCreateAccountTxFee R = .ok fee ∧
          (c.told ⟨R, timestamp, false⟩).getLast? = some last ∧
          c.numPayers * (fee + c.payerAccountBalanceLamports) ≤ last) ↔
      ∀ fee, requestCreateAccountTxFee R = .ok fee →
        c.numPayers * (fee + c.payerAccountBalanceLamports) < 2 ^ 64 ∨
          ¬ Covered R (c.numPayers * (fee + c.payerAccountBalanceLamports) % 2 ^ 64) := by
  cases hfee : requestCreateAccountTxFee R with
  | error error =>
    have herror : c.ensureAuthorityBalance ⟨R, timestamp, false⟩ = some (.error error) := by
      simp only [AccountsCreator.ensureAuthorityBalance, hfee]
    simp [herror]
  | ok fee =>
    have hok := ensure_ok_iff ⟨R, timestamp, false⟩ hfee (required_wrap c fee)
    simp only [Except.ok.injEq, forall_eq', exists_and_left, exists_eq_left']
    constructor
    · intro h
      by_contra hnot
      simp only [not_or, not_lt, not_not] at hnot
      obtain ⟨hbig, hcov⟩ := hnot
      obtain ⟨last, hlast, hle⟩ := h (hok.2 hcov)
      obtain ⟨last', hlast', -, hreply⟩ := told_of_ok ⟨R, timestamp, false⟩ hfee
        (required_wrap c fee) (hok.2 hcov)
      obtain rfl : last = last' := Option.some.inj (hlast.symm.trans hlast')
      have hlt : last < 2 ^ 64 := hreply.elim (hactual last) (hafter last)
      omega
    · rintro h hens
      obtain ⟨last, hlast, hle, -⟩ := told_of_ok ⟨R, timestamp, false⟩ hfee
        (required_wrap c fee) hens
      rcases h with hfit | hnot
      · rw [Nat.mod_eq_of_lt hfit] at hle
        exact ⟨last, hlast, hle⟩
      · exact absurd (hok.1 hens) hnot

/-- Eight payers of one SOL. -/
theorem authority_balance_eight : ∃ fee last,
    requestCreateAccountTxFee { flakyReplies with authorityBalance := .ok 8000040000 } = .ok fee ∧
      (AccountsCreator.told ⟨{ flakyReplies with authorityBalance := .ok 8000040000 }, "", false⟩
        ⟨Sender.plainPayer, 8, LAMPORTS_PER_SOL⟩).getLast? = some last ∧
      8 * (fee + LAMPORTS_PER_SOL) ≤ last := by
  refine (authority_balance_iff { flakyReplies with authorityBalance := .ok 8000040000 } ""
    ⟨Sender.plainPayer, 8, LAMPORTS_PER_SOL⟩ ?_ ?_).2 ?_ (by decide)
  · rintro b ⟨⟩
    decide
  · rintro b ⟨⟩
    decide
  · rintro fee ⟨⟩
    exact .inl (by decide)

/-- Eight payers of `2^61` lamports, fee included, need nothing. -/
theorem underfunded_authority :
    AccountsCreator.ensureAuthorityBalance ⟨flakyReplies, "", false⟩
        ⟨Sender.plainPayer, 8, 2 ^ 61 - 5000⟩ = some (.ok ()) ∧
      requestCreateAccountTxFee flakyReplies = .ok 5000 ∧
      AccountsCreator.told ⟨flakyReplies, "", false⟩ ⟨Sender.plainPayer, 8, 2 ^ 61 - 5000⟩ =
        [1000000000] ∧
      ¬ 8 * (5000 + (2 ^ 61 - 5000)) ≤ 1000000000 := by
  decide

end TpuTools.Accounts
