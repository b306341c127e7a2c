import TpuTools.L2Accounts.AccountsFile
import TpuTools.L2Accounts.CreateAccounts
import TpuTools.L2Sender.BuildTx

/-!
# Funding payers (`accounts_creator.rs`, `accounts_file.rs` in `tools-common/src`)

`AccountsCreator::create` checks the authority's balance, creates the payers and dumps
them to a file when there are too few. `create_ephemeral_accounts` validates and returns
them, `create_file_persisted_accounts` writes them to the requested file.

A run starts with the files there are (`World.start`); it also records the paths it writes
and the batches it sends. Writes succeed. The outer `none` is a panic.

* `create_spec`: the ways `create` ends.
* `validatePayers_iff`: when the validation accepts.
* **`no_key_lost_iff`**: every confirmed keypair is returned or in a written file, except when
  all payers are created and the validation then refuses one.
* `refused_writes_nothing`: what is left then.
-/
namespace TpuTools.Accounts
open Ints

/-- mirrors tools-common/src/accounts_creator.rs:35-45 -/
inductive CreatorError where
  | clientError (error : ClientError)
  | airdropFailure
  | createAccountFailure
  deriving DecidableEq

/-- mirrors tools-common/src/accounts_file.rs:15-31 -/
inductive Error where
  | accountsCreatorError (error : CreatorError)
  | keypairReadFailure
  | accountsValidationFailure
  | findValidatorIdentityFailure
  | rpcClientError (error : ClientError)
  deriving DecidableEq

/-- `solana_native_token::LAMPORTS_PER_SOL` -/
def LAMPORTS_PER_SOL : Nat := 1000000000

/-- What a run gets from outside. -/
structure Env where
  replies : Replies
  /-- the time in the name of the dump file -/
  timestamp : String
  /-- overflow checks are compiled in -/
  checks : Bool

/-- What a run leaves behind. -/
structure World where
  files : Files
  /-- ghost: the paths this run wrote -/
  written : List String
  /-- ghost: the batches this run sent -/
  sent : List (Nat × Batch)

def World.start (files : Files) : World := ⟨files, [], []⟩

/-- mirrors tools-common/src/accounts_creator.rs:47-52 -/
structure AccountsCreator where
  authority : Keypair
  numPayers : Nat
  payerAccountBalanceLamports : Nat

variable (sdk : Sdk) (env : Env)

def World.write (w : World) (path : String) (accounts : AccountsFile) : World :=
  { w with files := writeAccountsFile sdk w.files path accounts, written := w.written ++ [path] }

/-- The blockhash and the rent go into the message whose fee is asked for.
mirrors tools-common/src/accounts_creator.rs:127-147 -/
def requestCreateAccountTxFee (R : Replies) : Except CreatorError Nat :=
  match R.minimumBalanceForRentExemption, R.feeBlockhash, R.feeForMessage with
  | .error error, _, _ => .error (.clientError error)
  | .ok _, .error error, _ => .error (.clientError error)
  | .ok _, .ok _, .error error => .error (.clientError error)
  | .ok _, .ok _, .ok fee => .ok fee

/-- The part after the balance turned out too small.
mirrors tools-common/src/accounts_creator.rs:107-124 -/
def airdrop (R : Replies) (requiredBalance actualBalance : Nat) : Except CreatorError Unit :=
  match R.requestAirdrop (requiredBalance - actualBalance), R.confirmAirdrop,
    R.balanceAfterAirdrop with
  | .error error, _, _ => .error (.clientError error)
  | .ok _, .error error, _ => .error (.clientError error)
  | .ok _, .ok _, .error error => .error (.clientError error)
  | .ok _, .ok _, .ok actualBalance =>
    if actualBalance < requiredBalance then .error .airdropFailure else .ok ()

/-- mirrors tools-common/src/accounts_creator.rs:90-125 -/
def AccountsCreator.ensureAuthorityBalance (c : AccountsCreator) :
    Option (Except CreatorError Unit) :=
  match requestCreateAccountTxFee env.replies with
  | .error error => some (.error error)
  | .ok fee => do
    let minBalanceToCreateAccount ← addU64 env.checks fee c.payerAccountBalanceLamports
    let requiredBalance ← mulU64 env.checks c.numPayers minBalanceToCreateAccount
    match env.replies.authorityBalance with
    | .error error => pure (.error (.clientError error))
    | .ok actualBalance =>
      if requiredBalance ≤ actualBalance then pure (.ok ())
      else pure (airdrop env.replies requiredBalance actualBalance)

/-- mirrors tools-common/src/accounts_creator.rs:149-158 -/
def AccountsCreator.createPayers (c : AccountsCreator) : Option Progress :=
  createAccounts sdk env.checks env.replies [c.authority] c.numPayers
    c.payerAccountBalanceLamports MAX_CONTINUOUS_FAILED_ATTEMPTS

/-- mirrors tools-common/src/accounts_creator.rs:161-170 -/
def savePartialResults (w : World) (payers : List Keypair) : World :=
  w.write sdk ("./accounts-dump-" ++ env.timestamp ++ ".json") ⟨payers⟩

/-- mirrors tools-common/src/accounts_creator.rs:69-88 -/
def AccountsCreator.create (c : AccountsCreator) (w : World) :
    Option (Except CreatorError AccountsFile × World) := do
  match ← c.ensureAuthorityBalance env with
  | .error error => pure (.error error, w)
  | .ok () =>
    let progress ← c.createPayers sdk env
    let payers := progress.createdAccounts
    let w := { w with sent := progress.sent }
    if payers.length ≠ c.numPayers then
      pure (.error .createAccountFailure,
        if payers ≠ [] then savePartialResults sdk env w payers else w)
    else pure (.ok ⟨payers⟩, w)

/-- The loop of `validate_payers`, at the payer with the given index. -/
def validateLoop (R : Replies) (desiredBalanceLamports : Nat) :
    Nat → List Keypair → Except Error Bool
  | _, [] => .ok true
  | i, _ :: payers =>
    match R.payerBalance i with
    | .error error => .error (.rpcClientError error)
    | .ok balanceSol =>
      if saturatingMul balanceSol LAMPORTS_PER_SOL < desiredBalanceLamports then .ok false
      else validateLoop R desiredBalanceLamports (i + 1) payers

/-- mirrors tools-common/src/accounts_file.rs:121-147 -/
def validatePayers (R : Replies) (accounts : AccountsFile)
    (desiredNum desiredBalanceLamports : Nat) : Except Error Bool :=
  if accounts.payers.length < desiredNum then .ok false
  else validateLoop R desiredBalanceLamports 0 accounts.payers

/-- mirrors tools-common/src/accounts_file.rs:70-98 -/
def createEphemeralAccounts (authority : Keypair) (numPayers payersAccountBalanceLamports : Nat)
    (validateAccounts : Bool) (w : World) : Option (Except Error AccountsFile × World) := do
  let accountsCreator : AccountsCreator := ⟨authority, numPayers, payersAccountBalanceLamports⟩
  match ← accountsCreator.create sdk env w with
  | (.error error, w) => pure (.error (.accountsCreatorError error), w)
  | (.ok accounts, w) =>
    if validateAccounts then
      match validatePayers env.replies accounts numPayers payersAccountBalanceLamports with
      | .error error => pure (.error error, w)
      | .ok false => pure (.error .accountsValidationFailure, w)
      | .ok true => pure (.ok accounts, w)
    else pure (.ok accounts, w)

/-- mirrors tools-common/src/accounts_file.rs:100-119 -/
def createFilePersistedAccounts (authority : Keypair) (accountsFile : String)
    (numPayers payersAccountBalance : Nat) (validateAccounts : Bool) (w : World) :
    Option (Except Error Unit × World) := do
  match ← createEphemeralAccounts sdk env authority numPayers payersAccountBalance
    validateAccounts w with
  | (.error error, w) => pure (.error error, w)
  | (.ok accounts, w) => pure (.ok (), w.write sdk accountsFile accounts)

/-! ## How the functions end -/

variable {sdk env}

/-- The ways `create` ends. -/
theorem create_spec {c : AccountsCreator} {w w' : World}
    {result : Except CreatorError AccountsFile} (h : c.create sdk env w = some (result, w')) :
    (∃ error, c.ensureAuthorityBalance env = some (.error error) ∧ result = .error error ∧
      w' = w) ∨
    (c.ensureAuthorityBalance env = some (.ok ()) ∧ ∃ p, c.createPayers sdk env = some p ∧
      ((p.createdAccounts.length = c.numPayers ∧ result = .ok ⟨p.createdAccounts⟩ ∧
          w' = { w with sent := p.sent }) ∨
        (p.createdAccounts.length ≠ c.numPayers ∧ result = .error .createAccountFailure ∧
          w' = if p.createdAccounts ≠ [] then
              savePartialResults sdk env { w with sent := p.sent } p.createdAccounts
            else { w with sent := p.sent }))) := by
  simp only [AccountsCreator.create, Option.bind_eq_bind, Option.bind_eq_some_iff] at h
  obtain ⟨balance, hbalance, h⟩ := h
  cases balance with
  | error error =>
    cases h
    exact .inl ⟨error, hbalance, rfl, rfl⟩
  | ok _ =>
    simp only [Option.bind_eq_some_iff] at h
    obtain ⟨p, hp, h⟩ := h
    refine .inr ⟨hbalance, p, hp, ?_⟩
    split at h
    · rename_i hne
      cases h
      exact .inr ⟨hne, rfl, rfl⟩
    · rename_i heq
      cases h
      exact .inl ⟨Decidable.not_not.1 heq, rfl, rfl⟩

/-- The balance reply for a payer passes its check. -/
def Accepted (R : Replies) (desiredBalanceLamports i : Nat) : Prop :=
  ∃ balanceSol, R.payerBalance i = .ok balanceSol ∧
    desiredBalanceLamports ≤ saturatingMul balanceSol LAMPORTS_PER_SOL

theorem validateLoop_iff {R : Replies} {desired : Nat} :
    ∀ {payers : List Keypair} {first : Nat}, validateLoop R desired first payers = .ok true ↔
      ∀ i < payers.length, Accepted R desired (first + i)
  | [], first => by simp [validateLoop]
  | payer :: payers, first => by
    have hsplit : (∀ i < (payer :: payers).length, Accepted R desired (first + i)) ↔
        Accepted R desired first ∧ ∀ i < payers.length, Accepted R desired (first + 1 + i) := by
      constructor
      · intro h
        refine ⟨h 0 (Nat.succ_pos _), fun i hi => ?_⟩
        have := h (i + 1) (Nat.succ_lt_succ hi)
        rwa [← Nat.add_assoc, Nat.add_right_comm] at this
      · rintro ⟨h0, h⟩ i hi
        cases i with
        | zero => exact h0
        | succ i =>
          have := h i (Nat.lt_of_succ_lt_succ hi)
          rwa [Nat.add_right_comm, Nat.add_assoc] at this
    rw [hsplit, validateLoop]
    split
    · rename_i error herror
      simp [Accepted, herror]
    · rename_i balance hbalance
      split
      · rename_i hlt
        simp [Accepted, hbalance, Nat.not_le.2 hlt]
      · rename_i hge
        rw [validateLoop_iff]
        simp [Accepted, hbalance, Nat.not_lt.1 hge]

theorem validatePayers_iff {R : Replies} {accounts : AccountsFile} {num desired : Nat} :
    validatePayers R accounts num desired = .ok true ↔
      num ≤ accounts.payers.length ∧ ∀ i < accounts.payers.length, Accepted R desired i := by
  unfold validatePayers
  split
  · rename_i hlt
    simp [Nat.not_le.2 hlt]
  · rename_i hge
    simp [validateLoop_iff, Nat.not_lt.1 hge]

/-! ## No funded key is lost -/

/-- Every confirmed keypair is returned, or in a file of this run that gives it back. -/
def KeysKept (R : Replies) (w : World) (returned : List Keypair) : Prop :=
  ∀ k, Confirmed R w.sent k → k ∈ returned ∨
    ∃ path ∈ w.written, ∃ accounts, readAccountsFile w.files path = some accounts ∧
      k ∈ accounts.payers

/-- The keypairs in what `create_ephemeral_accounts` returns. -/
def returnedKeys : Except Error AccountsFile → List Keypair
  | .ok accounts => accounts.payers
  | .error _ => []

/-- All payers are created and then refused: the validation is on, the authority's balance
suffices, the replies let all payers be created, and one of their balances is not
delivered or too small. -/
structure Refused (env : Env) (c : AccountsCreator) (validateAccounts : Bool) : Prop where
  validate : validateAccounts = true
  authority : c.ensureAuthorityBalance env = some (.ok ())
  funds : Funds env.checks env.replies c.numPayers MAX_CONTINUOUS_FAILED_ATTEMPTS
  refused : ∃ i < c.numPayers, ¬ Accepted env.replies c.payerAccountBalanceLamports i

theorem keysKept_returned {R : Replies} {w : World} {returned : List Keypair}
    (h : ∀ k, Confirmed R w.sent k → k ∈ returned) : KeysKept R w returned :=
  fun k hk => .inl (h k hk)

/-- Writing the confirmed keypairs keeps them. -/
theorem keysKept_write {R : Replies} {w : World} {path : String} {payers returned : List Keypair}
    (h : ∀ k, Confirmed R w.sent k → k ∈ payers) :
    KeysKept R (w.write sdk path ⟨payers⟩) returned :=
  fun k hk => .inr ⟨path, List.mem_append_right _ (List.mem_singleton.2 rfl), ⟨payers⟩,
    read_write w.files path ⟨payers⟩, h k hk⟩

/-- Without a file and a result, a confirmed keypair is lost. -/
theorem not_keysKept {R : Replies} {w : World} {k : Keypair} (hw : w.written = [])
    (hk : Confirmed R w.sent k) : ¬ KeysKept R w [] := by
  intro h
  rcases h k hk with hmem | ⟨path, hpath, -⟩
  · cases hmem
  · rw [hw] at hpath
    cases hpath

theorem not_confirmed_nil {R : Replies} {k : Keypair} : ¬ Confirmed R [] k := by
  rintro ⟨_, _, _, _, hmem, -⟩
  cases hmem

section Run

variable {authority : Keypair} {num balance : Nat} {validate : Bool} {files : Files}

/-- When `create` fails, its dump keeps the keypairs. -/
theorem create_error_kept {c : AccountsCreator} {error : CreatorError} {w : World}
    (h : c.create sdk env (.start files) = some (.error error, w)) (returned : List Keypair) :
    KeysKept env.replies w returned := by
  obtain ⟨e, -, -, rfl⟩ | ⟨-, p, hp, ⟨-, hres, -⟩ | ⟨-, -, rfl⟩⟩ := create_spec h
  · exact fun k hk => absurd hk not_confirmed_nil
  · cases hres
  · have hcreated := created_confirmed hp
    split
    · exact keysKept_write fun k hk => (hcreated k).2 hk
    · rename_i hnil
      intro k hk
      rw [← hcreated k, Decidable.not_not.1 hnil] at hk
      cases hk

/-- When `create` succeeds, its result holds the keypairs, and nothing is written yet. -/
theorem create_ok {c : AccountsCreator} {accounts : AccountsFile} {w : World}
    (h : c.create sdk env (.start files) = some (.ok accounts, w)) :
    c.ensureAuthorityBalance env = some (.ok ()) ∧
      Funds env.checks env.replies c.numPayers MAX_CONTINUOUS_FAILED_ATTEMPTS ∧
      accounts.payers.length = c.numPayers ∧ w.files = files ∧ w.written = [] ∧
      ∀ k, k ∈ accounts.payers ↔ Confirmed env.replies w.sent k := by
  obtain ⟨e, -, hres, -⟩ | ⟨hbalance, p, hp, ⟨hlen, hres, rfl⟩ | ⟨-, hres, -⟩⟩ :=
    create_spec h
  · cases hres
  · cases hres
    exact ⟨hbalance, (created_eq_num_iff hp).1 (Nat.le_of_eq hlen.symm), hlen, rfl, rfl,
      created_confirmed hp⟩
  · cases hres

/-- When `create` fails, the payers were not all to be created. -/
theorem create_error_not_funded {c : AccountsCreator} {error : CreatorError} {w : World}
    (h : c.create sdk env (.start files) = some (.error error, w)) :
    ¬ (c.ensureAuthorityBalance env = some (.ok ()) ∧
      Funds env.checks env.replies c.numPayers MAX_CONTINUOUS_FAILED_ATTEMPTS) := by
  rintro ⟨hok, hfunds⟩
  obtain ⟨e, hbalance, -, -⟩ | ⟨-, p, hp, ⟨-, hres, -⟩ | ⟨hlen, -, -⟩⟩ := create_spec h
  · rw [hok] at hbalance
    cases hbalance
  · cases hres
  · exact hlen (Nat.le_antisymm (created_le hp) ((created_eq_num_iff hp).2 hfunds))

/-- How `create_ephemeral_accounts` ends: refused with nothing written, or with a result
that holds the keypairs, or with an error that loses none. -/
theorem ephemeral_spec {result : Except Error AccountsFile} {w : World}
    (h : createEphemeralAccounts sdk env authority num balance validate (.start files) =
      some (result, w)) :
    (Refused env ⟨authority, num, balance⟩ validate ∧ (∃ error, result = .error error) ∧
      w.files = files ∧ w.written = [] ∧ ∃ k, Confirmed env.replies w.sent k) ∨
    (¬ Refused env ⟨authority, num, balance⟩ validate ∧
      ((∃ accounts, result = .ok accounts ∧
          ∀ k, Confirmed env.replies w.sent k → k ∈ accounts.payers) ∨
        ((∃ error, result = .error error) ∧
          ∀ returned, KeysKept env.replies w returned))) := by
  simp only [createEphemeralAccounts, Option.bind_eq_bind, Option.bind_eq_some_iff] at h
  obtain ⟨⟨created, w1⟩, hcreate, h⟩ := h
  cases created with
  | error error =>
    cases h
    refine .inr ⟨fun hR => create_error_not_funded hcreate ⟨hR.authority, hR.funds⟩,
      .inr ⟨⟨_, rfl⟩, create_error_kept hcreate⟩⟩
  | ok accounts =>
    obtain ⟨hbalance, hfunds, hlen, hfiles, hwritten, hkeys⟩ := create_ok hcreate
    have hlen : accounts.payers.length = num := hlen
    have hvalid : validatePayers env.replies accounts num balance = .ok true ↔
        num ≤ accounts.payers.length ∧ ∀ i < accounts.payers.length,
          Accepted env.replies balance i := validatePayers_iff
    rw [hlen] at hvalid
    cases validate with
    | false =>
      cases h
      exact .inr ⟨fun hR => Bool.noConfusion hR.validate,
        .inl ⟨accounts, rfl, fun k => (hkeys k).2⟩⟩
    | true =>
      rcases Decidable.em (validatePayers env.replies accounts num balance = .ok true) with
        htrue | hother
      · simp only [if_true, htrue] at h
        cases h
        refine .inr ⟨fun ⟨_, _, _, i, hi, hnot⟩ => hnot ((hvalid.1 htrue).2 i hi),
          .inl ⟨accounts, rfl, fun k => (hkeys k).2⟩⟩
      · have hrefused : ∃ i < num, ¬ Accepted env.replies balance i := by
          by_contra hall
          simp only [not_exists, not_and, not_not] at hall
          exact hother (hvalid.2 ⟨Nat.le_refl _, hall⟩)
        have hend : (∃ error, result = .error error) ∧ w = w1 := by
          simp only [if_true] at h
          split at h
          · cases h; exact ⟨⟨_, rfl⟩, rfl⟩
          · cases h; exact ⟨⟨_, rfl⟩, rfl⟩
          · rename_i htrue
            exact absurd htrue hother
        obtain ⟨herror, rfl⟩ := hend
        refine .inl ⟨⟨rfl, hbalance, hfunds, hrefused⟩, herror, hfiles, hwritten, ?_⟩
        -- there is a payer, and every payer is confirmed
        obtain ⟨i, hi, -⟩ := hrefused
        have hpos : accounts.payers ≠ [] := by
          apply List.length_pos_iff.1
          omega
        exact ⟨accounts.payers.head hpos, (hkeys _).1 (List.head_mem hpos)⟩

/-- A refusal returns an error and leaves the files as they were. -/
theorem refused_writes_nothing {result : Except Error AccountsFile} {w : World}
    (h : createEphemeralAccounts sdk env authority num balance validate (.start files) =
      some (result, w)) (hR : Refused env ⟨authority, num, balance⟩ validate) :
    (∃ error, result = .error error) ∧ w.files = files ∧ w.written = [] := by
  obtain ⟨-, herror, hfiles, hwritten, -⟩ | ⟨hnot, -⟩ := ephemeral_spec h
  · exact ⟨herror, hfiles, hwritten⟩
  · exact absurd hR hnot

/-- **No funded key is lost, unless all payers are created and then refused.** -/
theorem no_key_lost_iff (sdk : Sdk) (env : Env) (authority : Keypair) (num balance : Nat)
    (validate : Bool) (files : Files) :
    (∀ result w, createEphemeralAccounts sdk env authority num balance validate
        (.start files) = some (result, w) →
      (KeysKept env.replies w (returnedKeys result) ↔
        ¬ Refused env ⟨authority, num, balance⟩ validate)) ∧
    ∀ accountsFile result w, createFilePersistedAccounts sdk env authority accountsFile num
        balance validate (.start files) = some (result, w) →
      (KeysKept env.replies w [] ↔ ¬ Refused env ⟨authority, num, balance⟩ validate) := by
  constructor
  · intro result w h
    obtain ⟨hR, ⟨error, rfl⟩, -, hwritten, k, hk⟩ | ⟨hR, ⟨accounts, rfl, hkeys⟩ | ⟨-, hkept⟩⟩ :=
      ephemeral_spec h
    · exact iff_of_false (not_keysKept hwritten hk) (not_not_intro hR)
    · exact iff_of_true (keysKept_returned hkeys) hR
    · exact iff_of_true (hkept _) hR
  · intro accountsFile result w h
    simp only [createFilePersistedAccounts, Option.bind_eq_bind, Option.bind_eq_some_iff] at h
    obtain ⟨⟨created, w1⟩, hcreate, h⟩ := h
    obtain ⟨hR, ⟨error, rfl⟩, -, hwritten, k, hk⟩ |
      ⟨hR, ⟨accounts, rfl, hkeys⟩ | ⟨⟨error, rfl⟩, hkept⟩⟩ := ephemeral_spec hcreate
    · cases h
      exact iff_of_false (not_keysKept hwritten hk) (not_not_intro hR)
    · cases h
      exact iff_of_true (keysKept_write hkeys) hR
    · cases h
      exact iff_of_true (hkept _) hR

end Run

/-! ## One payer whose balance is not delivered -/

/-- Every request succeeds but the balance of the payer. -/
def oneReplies : Replies where
  minimumBalanceForRentExemption := .ok 890880
  feeBlockhash := .ok Sender.plainHash
  feeForMessage := .ok 5000
  authorityBalance := .ok LAMPORTS_PER_SOL
  requestAirdrop _ := .error ⟨"airdrop"⟩
  confirmAirdrop := .ok true
  balanceAfterAirdrop := .ok LAMPORTS_PER_SOL
  latestBlockhash _ := .ok Sender.plainHash
  sendAndConfirm _ _ := .ok Sender.plainSignature
  payerBalance _ := .error ⟨"timeout"⟩
  newKeypair _ _ := ⟨⟨List.replicate 32 5, by decide⟩⟩

def oneEnv : Env := ⟨oneReplies, "2026-01-01T00-00-00", true⟩

/-- After the one batch of the run. -/
def oneProgress : Progress where
  createdAccounts := [oneReplies.newKeypair 0 0]
  numSendBatchAttempts := 1
  numContinuousFailedAttempts := 0
  iteration := 1
  sent := [(0, [createAccountTransaction Sender.plainSdk Sender.plainPayer
    (oneReplies.newKeypair 0 0) Sender.plainHash 1])]

theorem one_createAccounts :
    createAccounts Sender.plainSdk true oneReplies [Sender.plainPayer] 1 1
      MAX_CONTINUOUS_FAILED_ATTEMPTS = some oneProgress := by
  have hstep : createStep Sender.plainSdk true oneReplies [Sender.plainPayer] 1 1 .init =
      some oneProgress := rfl
  rw [createAccounts, createLoop_go (by decide) hstep, createLoop_done (by decide)]

theorem one_create : AccountsCreator.create Sender.plainSdk oneEnv ⟨Sender.plainPayer, 1, 1⟩
    (.start fun _ => none) = some (.ok ⟨[oneReplies.newKeypair 0 0]⟩,
      ⟨fun _ => none, [], oneProgress.sent⟩) := by
  have hbalance : AccountsCreator.ensureAuthorityBalance oneEnv ⟨Sender.plainPayer, 1, 1⟩ =
      some (.ok ()) := by decide
  have hpayers : AccountsCreator.createPayers Sender.plainSdk oneEnv ⟨Sender.plainPayer, 1, 1⟩ =
      some oneProgress := one_createAccounts
  simp only [AccountsCreator.create, hbalance, hpayers, Option.bind_eq_bind, Option.bind_some]
  rfl

theorem one_confirmed : Confirmed oneReplies oneProgress.sent (oneReplies.newKeypair 0 0) :=
  ⟨0, _, 0, _, List.mem_singleton.2 rfl, rfl, rfl⟩

/-- Without validation the key is kept. -/
theorem no_key_lost_unvalidated : ∃ result w, createEphemeralAccounts Sender.plainSdk oneEnv
    Sender.plainPayer 1 1 false (.start fun _ => none) = some (result, w) ∧
      Confirmed oneReplies w.sent (oneReplies.newKeypair 0 0) ∧
      KeysKept oneReplies w (returnedKeys result) := by
  have h : createEphemeralAccounts Sender.plainSdk oneEnv Sender.plainPayer 1 1 false
      (.start fun _ => none) = some (.ok ⟨[oneReplies.newKeypair 0 0]⟩,
        ⟨fun _ => none, [], oneProgress.sent⟩) := by
    simp [createEphemeralAccounts, one_create]
  exact ⟨_, _, h, one_confirmed, ((no_key_lost_iff Sender.plainSdk oneEnv Sender.plainPayer 1 1
    false fun _ => none).1 _ _ h).2 fun hR => Bool.noConfusion hR.validate⟩

/-- With validation it is lost: the account is confirmed, the validation's balance request
fails, and neither function returns or writes the key. -/
theorem keys_lost :
    (∃ w, createEphemeralAccounts Sender.plainSdk oneEnv Sender.plainPayer 1 1 true
        (.start fun _ => none) = some (.error (.rpcClientError ⟨"timeout"⟩), w) ∧
      ¬ KeysKept oneReplies w []) ∧
    ∃ w, createFilePersistedAccounts Sender.plainSdk oneEnv Sender.plainPayer "accounts.json" 1 1
        true (.start fun _ => none) = some (.error (.rpcClientError ⟨"timeout"⟩), w) ∧
      ¬ KeysKept oneReplies w [] := by
  have h : createEphemeralAccounts Sender.plainSdk oneEnv Sender.plainPayer 1 1 true
      (.start fun _ => none) = some (.error (.rpcClientError ⟨"timeout"⟩),
        ⟨fun _ => none, [], oneProgress.sent⟩) := by
    simp only [createEphemeralAccounts, one_create, Option.bind_eq_bind, Option.bind_some]
    rfl
  have hlost : ¬ KeysKept oneReplies ⟨fun _ => none, [], oneProgress.sent⟩ [] :=
    not_keysKept rfl one_confirmed
  refine ⟨⟨_, h, hlost⟩, ⟨_, ?_, hlost⟩⟩
  simp only [createFilePersistedAccounts, h, Option.bind_eq_bind, Option.bind_some]
  rfl

end TpuTools.Accounts
