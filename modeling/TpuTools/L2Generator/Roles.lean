import TpuTools.Core.Window
import TpuTools.L2Generator.TransactionGenerator

/-!
# Who pays whom (`transaction-bench/src/generator`)

Each transfer takes its sender and its receiver from the cycle, one after the other. With an even
number of payers, as by default, a payer is always on the same side: those at even positions pay,
those at odd positions are paid. With an odd number the sides change with each round.

* `Transfers`: a generated transfer, by its number in the walk.
* **`payer_roles`**: who pays, who is paid, and how often.
-/
namespace TpuTools.Generator

variable {sdk : Sdk} {P : Params} {s : TransactionGenerator}

/-- The transfers are numbered through: this is transfer `i` of transaction `t` of batch `k`. -/
def Params.transferNumber (P : Params) (k t i : Nat) : Nat :=
  P.transactionParams.numSendInstructionsPerTx * (k * P.sendBatchSize + t) + i

/-- Transfer number `g` was generated, and pays from the payer at position `a` to the one at
position `b`. -/
def Transfers (sdk : Sdk) (P : Params) (s : TransactionGenerator) (g a b : Nat) : Prop :=
  ∃ k txs t tx i, (k, txs) ∈ s.generated ∧ txs[t]? = some tx ∧
    i < P.transactionParams.numSendInstructionsPerTx ∧ g = P.transferNumber k t i ∧
    tx.used[2 * i]? = some a ∧ tx.used[2 * i + 1]? = some b ∧
    ∃ sender receiver amount, P.payers[a]? = some sender ∧ P.payers[b]? = some receiver ∧
      tx.tx.message.instructions[i + 1]? =
        some (.transfer (sdk.pubkey sender) (sdk.pubkey receiver) amount)

theorem double_transferNumber (P : Params) (k t i : Nat) :
    2 * P.transferNumber k t i =
      2 * P.transactionParams.numSendInstructionsPerTx * (k * P.sendBatchSize + t) + 2 * i := by
  unfold Params.transferNumber
  rw [Nat.mul_add, Nat.mul_assoc]

/-- The sender of transfer `g` is element `2 g` of the cycle, the receiver the next one. -/
theorem Transfers.positions (hW : Walk sdk P s) (hP : P.Fits) {g a b : Nat}
    (h : Transfers sdk P s g a b) :
    a = (2 * g + 0) % P.payers.length ∧ b = (2 * g + 1) % P.payers.length := by
  obtain ⟨k, txs, t, tx, i, hk, ht, hi, rfl, ha, hb, -⟩ := h
  obtain ⟨-, hw⟩ := hW.batches hP hk
  obtain ⟨-, hsender⟩ := (hw t tx ht).position ha
  obtain ⟨-, hreceiver⟩ := (hw t tx ht).position hb
  rw [double_transferNumber]
  exact ⟨hsender, hreceiver⟩

/-- Every transfer of a generated transaction is one of them. -/
theorem transfers_generated (hW : Walk sdk P s) (hP : P.Fits) {k t i : Nat}
    {txs : List TransferTx} {tx : TransferTx} (hk : (k, txs) ∈ s.generated)
    (ht : txs[t]? = some tx) (hi : i < P.transactionParams.numSendInstructionsPerTx) :
    ∃ a b, Transfers sdk P s (P.transferNumber k t i) a b := by
  obtain ⟨-, hw⟩ := hW.batches hP hk
  obtain ⟨⟨budget, transfers, hins, -, hall⟩, -, -, -, hused⟩ := hw t tx ht
  obtain ⟨sender, receiver, amount, hsender, hreceiver, htransfer⟩ := hall i hi
  have used (j : Nat) (hj : j < 2 * P.transactionParams.numSendInstructionsPerTx) :
      tx.used[j]? = some ((2 * P.transactionParams.numSendInstructionsPerTx *
        (k * P.sendBatchSize + t) + j) % P.payers.length) := by
    rw [hused, List.getElem?_map, List.getElem?_range hj]
    rfl
  refine ⟨_, _, k, txs, t, tx, i, hk, ht, hi, rfl, used (2 * i) (by omega),
    used (2 * i + 1) (by omega), sender, receiver, amount, hsender, hreceiver, ?_⟩
  rw [hins, List.getElem?_cons_succ]
  exact htransfer

/-- All transfers of a window are generated. -/
def WindowDone (sdk : Sdk) (P : Params) (s : TransactionGenerator) (g₀ : Nat) : Prop :=
  ∀ g, g₀ ≤ g ∧ g < g₀ + Cycle.window P.payers.length → ∃ a b, Transfers sdk P s g a b

/-- **Who pays whom.** In every state, whatever the order of the tasks: every transfer of a
generated transaction has its number. With at least two payers none pays to itself, and with an
even number of payers those at even positions pay and those at odd positions are paid. Of a
window of transfers in a row each payer that pays at all pays exactly one, and each that is paid
at all gets exactly one: all payers when their number is odd. -/
theorem payer_roles (hP : P.Fits) (hs : (lts sdk P).Reachable s) :
    (∀ k txs t tx i, (k, txs) ∈ s.generated → txs[t]? = some tx →
      i < P.transactionParams.numSendInstructionsPerTx →
        ∃ a b, Transfers sdk P s (P.transferNumber k t i) a b) ∧
    (∀ g a b, Transfers sdk P s g a b →
      (2 ≤ P.payers.length → a ≠ b) ∧ (P.payers.length % 2 = 0 → a % 2 = 0 ∧ b % 2 = 1)) ∧
    ∀ g₀, WindowDone sdk P s g₀ → ∀ q < P.payers.length,
      (P.payers.length % 2 = 1 ∨ q % 2 = 0 →
        ∃! g, (g₀ ≤ g ∧ g < g₀ + Cycle.window P.payers.length) ∧ ∃ b, Transfers sdk P s g q b) ∧
      (P.payers.length % 2 = 1 ∨ q % 2 = 1 →
        ∃! g, (g₀ ≤ g ∧ g < g₀ + Cycle.window P.payers.length) ∧ ∃ a, Transfers sdk P s g a q) := by
  have hW := walk_reachable hP hs
  refine ⟨fun k txs t tx i hk ht hi => transfers_generated hW hP hk ht hi, ?_, ?_⟩
  · intro g a b h
    obtain ⟨rfl, rfl⟩ := h.positions hW hP
    constructor
    · intro htwo
      exact Cycle.succ_mod_ne htwo (2 * g)
    · intro heven
      exact ⟨Cycle.double_mod_parity hP.payers heven (by omega) g,
        Cycle.double_mod_parity hP.payers heven (by omega) g⟩
  · intro g₀ hdone q hq
    constructor
    · intro hpass
      refine (existsUnique_congr fun g => and_congr_right fun hg => ?_).2
        (Cycle.existsUnique_double (by omega) hq hpass g₀)
      constructor
      · rintro ⟨b, h⟩
        exact (h.positions hW hP).1.symm
      · intro hplace
        obtain ⟨a, b, h⟩ := hdone g hg
        obtain ⟨rfl, -⟩ := h.positions hW hP
        exact ⟨b, hplace ▸ h⟩
    · intro hpass
      refine (existsUnique_congr fun g => and_congr_right fun hg => ?_).2
        (Cycle.existsUnique_double (by omega) hq hpass g₀)
      constructor
      · rintro ⟨a, h⟩
        exact (h.positions hW hP).2.symm
      · intro hplace
        obtain ⟨a, b, h⟩ := hdone g hg
        obtain ⟨-, rfl⟩ := h.positions hW hP
        exact ⟨a, hplace ▸ h⟩

/-- Four payers. -/
def fourPayers : Params := { twoWorkers with
  payers := twoWorkers.payers ++ [⟨⟨List.replicate 32 4, rfl⟩⟩] }

theorem payer_roles_four : ∃ s, (lts Sender.plainSdk fourPayers).Reachable s ∧
    s.generated.map Prod.fst = [1, 0] ∧
    ∀ g a b, Transfers Sender.plainSdk fourPayers s g a b → a % 2 = 0 ∧ b % 2 = 1 := by
  obtain ⟨s, hs, hv⟩ := @LTS.reachable_of_view _ _ _ (· = TransactionGenerator.init)
    (step Sender.plainSdk fourPayers) _ rfl
    [.validate, .borrowBlockhash Sender.plainHash, .spawn, .spawn, .poolFull,
      .generate 1 [5, 6], .generate 0 [7, 1]]
    (fun s => s.generated.map Prod.fst) [1, 0] (by decide +kernel)
  obtain ⟨-, hroles, -⟩ := payer_roles ⟨by decide, by decide, by decide⟩ hs
  exact ⟨s, hs, hv, fun g a b h => (hroles g a b h).2 rfl⟩

end TpuTools.Generator
