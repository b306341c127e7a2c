import TpuTools.Core.LTS
import TpuTools.L2Accounts.AccountsCreator

/-!
# The commands (`rate-latency-tool/src/main.rs`, `transaction-bench/src/main.rs`)

`run` of both tools creates accounts or reads them from a file, and calls `run_client` with them or
writes them to a file. Invocations follow each other on the same files, whoever makes them and
whatever the RPC nodes reply.

Left out is what `run_client` does, and what it is given besides the accounts. Writes succeed, and
two texts are two paths.

* `Vault`: what the files are for: each path holds the keys of one creation.
* `commands_refine`: the invocations keep such a vault.
* **`launched_origin`**: so `run_client` gets the keys of one creation, or what was there before.
-/
namespace TpuTools.Accounts

/-- mirrors tools-common/src/cli.rs:42-58 -/
structure AccountParams where
  numPayers : Nat
  payerAccountBalance : Nat
  deriving DecidableEq, Repr

/-- mirrors rate-latency-tool/src/cli.rs:53-80 and transaction-bench/src/cli.rs:64-91 -/
inductive Command where
  | run (accountParams : AccountParams)
  | readAccountsRun (accountsFile : String)
  | writeAccounts (accountsFile : String) (accountParams : AccountParams)
  deriving DecidableEq, Repr

/-- What `run` reads of them.
mirrors rate-latency-tool/src/cli.rs:19-50 -/
structure ClientCliParameters where
  authority : Option String
  validateAccounts : Bool
  command : Command
  deriving DecidableEq, Repr

/-- One start of a tool, with what it gets from outside. -/
structure Invocation where
  parameters : ClientCliParameters
  env : Env
  /-- what `Keypair::new()` returns for the authority -/
  newAuthority : Keypair

inductive RunError where
  | keypairReadFailure
  | accountsFileError (error : Error)
  deriving DecidableEq

variable (sdk : Sdk) (keypairFiles : String → Option Keypair)

def Invocation.authority (inv : Invocation) : Option Keypair :=
  match inv.parameters.authority with
  | some authorityFile => keypairFiles authorityFile
  | none => some inv.newAuthority

/-- `run` up to the call of `run_client`: its error, or the accounts `run_client` is called with,
if it is. The outer `none` is a panic.
mirrors rate-latency-tool/src/main.rs:37-109 and transaction-bench/src/main.rs:79-151 -/
def run (files : Files) (inv : Invocation) :
    Option (Except RunError (Option AccountsFile) × World) :=
  match inv.authority keypairFiles with
  | none => some (.error .keypairReadFailure, .start files)
  | some authority =>
    match inv.parameters.command with
    | .run accountParams => do
      match ← createEphemeralAccounts sdk inv.env authority accountParams.numPayers
        accountParams.payerAccountBalance inv.parameters.validateAccounts (.start files) with
      | (.error error, w) => pure (.error (.accountsFileError error), w)
      | (.ok accounts, w) => pure (.ok (some accounts), w)
    | .readAccountsRun accountsFile => do
      let accounts ← readAccountsFile files accountsFile
      pure (.ok (some accounts), .start files)
    | .writeAccounts accountsFile accountParams => do
      match ← createFilePersistedAccounts sdk inv.env authority accountsFile
        accountParams.numPayers accountParams.payerAccountBalance inv.parameters.validateAccounts
        (.start files) with
      | (.error error, w) => pure (.error (.accountsFileError error), w)
      | (.ok (), w) => pure (.ok none, w)

/-- The files, and what `run_client` was called with so far. -/
structure Session where
  files : Files
  launched : List AccountsFile

def launchedBy : Except RunError (Option AccountsFile) → Option AccountsFile
  | .ok accounts => accounts
  | .error _ => none

/-- A panic writes nothing. -/
def Session.invoke (s : Session) (inv : Invocation) : Session :=
  match run sdk keypairFiles s.files inv with
  | none => s
  | some (result, w) => ⟨w.files, s.launched ++ (launchedBy result).toList⟩

def commands : LTS Session Invocation where
  init s := s.launched = []
  step s inv s' := s' = s.invoke sdk keypairFiles inv

/-! ## What the files are for -/

/-- The keys under each path, and those that were used. -/
structure Vault where
  keys : String → Option (List Keypair)
  launched : List (List Keypair)

def Command.accountParams : Command → Option AccountParams
  | .run accountParams | .writeAccounts _ accountParams => some accountParams
  | .readAccountsRun _ => none

/-- The keys whose accounts are created. -/
def AccountsCreator.created (c : AccountsCreator) (env : Env) : List Keypair :=
  (c.createPayers sdk env).elim [] (·.createdAccounts)

def Invocation.created (inv : Invocation) : List Keypair :=
  match inv.authority keypairFiles, inv.parameters.command.accountParams with
  | some authority, some accountParams =>
    AccountsCreator.created sdk
      ⟨authority, accountParams.numPayers, accountParams.payerAccountBalance⟩ inv.env
  | _, _ => []

def dumpPath (env : Env) : String := "./accounts-dump-" ++ env.timestamp ++ ".json"

/-- What an invocation can do. -/
inductive VaultStep (v : Vault) (inv : Invocation) : Vault → Prop where
  /-- an error, or a panic -/
  | failed : VaultStep v inv v
  | launched {accountParams : AccountParams}
      (hc : inv.parameters.command = .run accountParams)
      (hall : (inv.created sdk keypairFiles).length = accountParams.numPayers) :
      VaultStep v inv { v with launched := v.launched ++ [inv.created sdk keypairFiles] }
  | read {accountsFile : String} {keys : List Keypair}
      (hc : inv.parameters.command = .readAccountsRun accountsFile)
      (hkeys : v.keys accountsFile = some keys) :
      VaultStep v inv { v with launched := v.launched ++ [keys] }
  | stored {accountsFile : String} {accountParams : AccountParams}
      (hc : inv.parameters.command = .writeAccounts accountsFile accountParams)
      (hall : (inv.created sdk keypairFiles).length = accountParams.numPayers) :
      VaultStep v inv { v with
        keys := Function.update v.keys accountsFile (some (inv.created sdk keypairFiles)) }
  /-- some accounts, but not all -/
  | dumped {accountParams : AccountParams}
      (hc : inv.parameters.command.accountParams = some accountParams)
      (hsome : inv.created sdk keypairFiles ≠ [])
      (hfew : (inv.created sdk keypairFiles).length < accountParams.numPayers) :
      VaultStep v inv { v with
        keys := Function.update v.keys (dumpPath inv.env) (some (inv.created sdk keypairFiles)) }

def vault : LTS Vault Invocation where
  init v := v.launched = []
  step v inv v' := VaultStep sdk keypairFiles v inv v'

/-- The invocation can be the one that filled the path: it stored a whole creation there, or
dumped a part. -/
def Invocation.Fills (inv : Invocation) (path : String) (keys : List Keypair) : Prop :=
  keys = inv.created sdk keypairFiles ∧
    ((∃ accountParams, inv.parameters.command = .writeAccounts path accountParams ∧
        keys.length = accountParams.numPayers) ∨
      ∃ accountParams, inv.parameters.command.accountParams = some accountParams ∧
        path = dumpPath inv.env ∧ keys ≠ [] ∧ keys.length < accountParams.numPayers)

def Session.vault (s : Session) : Vault where
  keys path := (readAccountsFile s.files path).map (·.payers)
  launched := s.launched.map (·.payers)

variable {sdk keypairFiles} {s s' : Session} {inv : Invocation}

/-! ## The invocations keep the vault -/

theorem read_other (files : Files) {path other : String} (hne : other ≠ path)
    (accounts : AccountsFile) :
    readAccountsFile (writeAccountsFile sdk files path accounts) other =
      readAccountsFile files other := by
  unfold readAccountsFile writeAccountsFile
  rw [Function.update_of_ne hne]

theorem vault_write (files : Files) (launched : List AccountsFile) (path : String)
    (payers : List Keypair) :
    (Session.mk (writeAccountsFile sdk files path ⟨payers⟩) launched).vault =
      { (Session.mk files launched).vault with
        keys := Function.update (Session.mk files launched).vault.keys path (some payers) } := by
  unfold Session.vault
  congr 1
  funext other
  by_cases heq : other = path
  · subst heq
    rw [Function.update_self, read_write]
    rfl
  · rw [Function.update_of_ne heq, read_other files heq]

theorem vault_launch (files : Files) (launched : List AccountsFile) (accounts : AccountsFile) :
    (Session.mk files (launched ++ [accounts])).vault =
      { (Session.mk files launched).vault with
        launched := (Session.mk files launched).vault.launched ++ [accounts.payers] } := by
  unfold Session.vault
  rw [List.map_append]
  rfl

/-- What a creation leaves in the files when it fails: nothing new, or its dump. -/
def LeftBy (sdk : Sdk) (env : Env) (num : Nat) (keys : List Keypair) (files left : Files) : Prop :=
  left = files ∨ (keys ≠ [] ∧ keys.length < num ∧
    left = writeAccountsFile sdk files (dumpPath env) ⟨keys⟩)

theorem create_effect {env : Env} {c : AccountsCreator} {files : Files}
    {result : Except CreatorError AccountsFile} {w : World}
    (h : c.create sdk env (.start files) = some (result, w)) :
    (result = .ok ⟨c.created sdk env⟩ ∧ (c.created sdk env).length = c.numPayers ∧
        w.files = files) ∨
      ((∃ error, result = .error error) ∧
        LeftBy sdk env c.numPayers (c.created sdk env) files w.files) := by
  obtain ⟨error, -, rfl, rfl⟩ | ⟨-, p, hp, hend⟩ := create_spec h
  · exact .inr ⟨⟨error, rfl⟩, .inl rfl⟩
  · have hcreated : c.created sdk env = p.createdAccounts := by
      rw [AccountsCreator.created, hp]
      rfl
    rw [hcreated]
    obtain ⟨hlen, rfl, rfl⟩ | ⟨hlen, rfl, rfl⟩ := hend
    · exact .inl ⟨rfl, hlen, rfl⟩
    · refine .inr ⟨⟨_, rfl⟩, ?_⟩
      have hle : p.createdAccounts.length ≤ c.numPayers := created_le hp
      split
      · rename_i hne
        exact .inr ⟨hne, by omega, rfl⟩
      · exact .inl rfl

/-- The validation changes no file. -/
theorem ephemeral_effect {env : Env} {authority : Keypair} {num balance : Nat} {validate : Bool}
    {files : Files} {result : Except Error AccountsFile} {w : World} {keys : List Keypair}
    (hkeys : AccountsCreator.created sdk ⟨authority, num, balance⟩ env = keys)
    (h : createEphemeralAccounts sdk env authority num balance validate (.start files) =
      some (result, w)) :
    (result = .ok ⟨keys⟩ ∧ keys.length = num ∧ w.files = files) ∨
      ((∃ error, result = .error error) ∧ LeftBy sdk env num keys files w.files) := by
  simp only [createEphemeralAccounts, Option.bind_eq_bind, Option.bind_eq_some_iff] at h
  obtain ⟨⟨created, w1⟩, hcreate, h⟩ := h
  obtain ⟨rfl, hlen, hfiles⟩ | ⟨⟨error, rfl⟩, hleft⟩ := create_effect hcreate
  · rw [hkeys] at h hlen
    have hend : (result = .ok ⟨keys⟩ ∨ ∃ error, result = .error error) ∧ w = w1 := by
      cases validate with
      | false =>
        cases h
        exact ⟨.inl rfl, rfl⟩
      | true =>
        simp only [if_true] at h
        split at h
        · cases h
          exact ⟨.inr ⟨_, rfl⟩, rfl⟩
        · cases h
          exact ⟨.inr ⟨_, rfl⟩, rfl⟩
        · cases h
          exact ⟨.inl rfl, rfl⟩
    obtain ⟨rfl | herror, rfl⟩ := hend
    · exact .inl ⟨rfl, hlen, hfiles⟩
    · exact .inr ⟨herror, .inl hfiles⟩
  · cases h
    rw [hkeys] at hleft
    exact .inr ⟨⟨_, rfl⟩, hleft⟩

theorem created_eq {authority : Keypair} {accountParams : AccountParams}
    (hauth : inv.authority keypairFiles = some authority)
    (hc : inv.parameters.command.accountParams = some accountParams) :
    AccountsCreator.created sdk
      ⟨authority, accountParams.numPayers, accountParams.payerAccountBalance⟩ inv.env =
        inv.created sdk keypairFiles := by
  simp only [Invocation.created, hauth, hc]

/-- A failed creation, seen in the vault. -/
theorem left_step {accountParams : AccountParams} {w : World}
    (hc : inv.parameters.command.accountParams = some accountParams)
    (h : LeftBy sdk inv.env accountParams.numPayers (inv.created sdk keypairFiles) s.files
      w.files) :
    VaultStep sdk keypairFiles s.vault inv (Session.mk w.files (s.launched ++ [])).vault := by
  rw [List.append_nil]
  obtain hsame | ⟨hsome, hfew, hdump⟩ := h
  · rw [hsame]
    exact .failed
  · rw [hdump, vault_write]
    exact .dumped hc hsome hfew

/-- The session after `run` gave `result` and left `w`. -/
def Session.after (s : Session) (result : Except RunError (Option AccountsFile)) (w : World) :
    Session :=
  ⟨w.files, s.launched ++ (launchedBy result).toList⟩

section Commands

variable {authority : Keypair} {result : Except RunError (Option AccountsFile)} {w : World}

theorem run_step {accountParams : AccountParams}
    (hauth : inv.authority keypairFiles = some authority)
    (hc : inv.parameters.command = .run accountParams)
    (h : run sdk keypairFiles s.files inv = some (result, w)) :
    VaultStep sdk keypairFiles s.vault inv (s.after result w).vault := by
  have hparams : inv.parameters.command.accountParams = some accountParams := by rw [hc]; rfl
  simp only [run, hauth, hc, Option.bind_eq_bind, Option.bind_eq_some_iff] at h
  obtain ⟨⟨ephemeral, w1⟩, heph, h⟩ := h
  obtain ⟨rfl, hlen, hfiles⟩ | ⟨⟨error, rfl⟩, hleft⟩ :=
    ephemeral_effect (created_eq hauth hparams) heph
  · cases h
    rw [Session.after, hfiles]
    exact vault_launch s.files s.launched _ ▸ .launched hc hlen
  · cases h
    exact left_step hparams hleft

theorem readAccountsRun_step {accountsFile : String}
    (hauth : inv.authority keypairFiles = some authority)
    (hc : inv.parameters.command = .readAccountsRun accountsFile)
    (h : run sdk keypairFiles s.files inv = some (result, w)) :
    VaultStep sdk keypairFiles s.vault inv (s.after result w).vault := by
  simp only [run, hauth, hc, Option.bind_eq_bind, Option.bind_eq_some_iff] at h
  obtain ⟨accounts, hread, h⟩ := h
  cases h
  refine vault_launch s.files s.launched accounts ▸ .read hc ?_
  simp only [Session.vault, hread, Option.map_some]

theorem writeAccounts_step {accountsFile : String} {accountParams : AccountParams}
    (hauth : inv.authority keypairFiles = some authority)
    (hc : inv.parameters.command = .writeAccounts accountsFile accountParams)
    (h : run sdk keypairFiles s.files inv = some (result, w)) :
    VaultStep sdk keypairFiles s.vault inv (s.after result w).vault := by
  have hparams : inv.parameters.command.accountParams = some accountParams := by rw [hc]; rfl
  simp only [run, hauth, hc, createFilePersistedAccounts, Option.bind_eq_bind,
    Option.bind_eq_some_iff] at h
  obtain ⟨⟨written, w2⟩, ⟨⟨ephemeral, w1⟩, heph, hpersist⟩, h⟩ := h
  obtain ⟨rfl, hlen, hfiles⟩ | ⟨⟨error, rfl⟩, hleft⟩ :=
    ephemeral_effect (created_eq hauth hparams) heph
  · cases hpersist
    cases h
    simp only [Session.after, launchedBy, Option.toList, List.append_nil, World.write, hfiles,
      vault_write]
    exact .stored hc hlen
  · cases hpersist
    cases h
    exact left_step hparams hleft

end Commands

theorem invoke_step (s : Session) (inv : Invocation) :
    VaultStep sdk keypairFiles s.vault inv (s.invoke sdk keypairFiles inv).vault := by
  unfold Session.invoke
  split
  · exact .failed
  · rename_i result w h
    cases hauth : inv.authority keypairFiles with
    | none =>
      simp only [run, hauth] at h
      cases h
      exact (List.append_nil s.launched).symm ▸ .failed
    | some authority =>
      cases hc : inv.parameters.command with
      | run accountParams => exact run_step hauth hc h
      | readAccountsRun accountsFile => exact readAccountsRun_step hauth hc h
      | writeAccounts accountsFile accountParams => exact writeAccounts_step hauth hc h

/-! ## Runs -/

theorem commands_refine {invs : List Invocation} (h : (commands sdk keypairFiles).Run s invs s') :
    (vault sdk keypairFiles).Run s.vault invs s'.vault := by
  induction h with
  | nil => exact .nil _
  | @cons s s₁ s' inv invs hstep _ ih =>
    obtain rfl : s₁ = s.invoke sdk keypairFiles inv := hstep
    exact .cons (invoke_step s inv) ih

theorem keys_step {v v' : Vault} (h : VaultStep sdk keypairFiles v inv v') {path : String}
    {keys : List Keypair} (hkeys : v'.keys path = some keys) :
    v.keys path = some keys ∨ inv.Fills sdk keypairFiles path keys := by
  cases h with
  | failed | launched | read => exact .inl hkeys
  | @stored accountsFile accountParams hc hall =>
    by_cases heq : path = accountsFile
    · subst heq
      simp only [Function.update_self, Option.some.injEq] at hkeys
      subst hkeys
      exact .inr ⟨rfl, .inl ⟨accountParams, hc, hall⟩⟩
    · simp only [Function.update_of_ne heq] at hkeys
      exact .inl hkeys
  | @dumped accountParams hc hsome hfew =>
    by_cases heq : path = dumpPath inv.env
    · subst heq
      simp only [Function.update_self, Option.some.injEq] at hkeys
      subst hkeys
      exact .inr ⟨rfl, .inr ⟨accountParams, hc, rfl, hsome, hfew⟩⟩
    · simp only [Function.update_of_ne heq] at hkeys
      exact .inl hkeys

/-- Keys under a path were there before the run, or one of its invocations put them there. -/
theorem keys_origin {v v' : Vault} {invs : List Invocation}
    (h : (vault sdk keypairFiles).Run v invs v') {path : String} {keys : List Keypair}
    (hkeys : v'.keys path = some keys) :
    v.keys path = some keys ∨ ∃ inv ∈ invs, inv.Fills sdk keypairFiles path keys := by
  induction h with
  | nil => exact .inl hkeys
  | @cons v v₁ v' inv invs hstep _ ih =>
    obtain hv | ⟨other, hmem, hfills⟩ := ih hkeys
    · obtain hv | hfills := keys_step hstep hv
      · exact .inl hv
      · exact .inr ⟨inv, List.mem_cons_self, hfills⟩
    · exact .inr ⟨other, List.mem_cons_of_mem _ hmem, hfills⟩

/-- **`run_client` is called with all keys of the creation of its own invocation, or with what one
earlier invocation put under the path it reads, or what was there before.** -/
theorem launched_origin {invs : List Invocation} {inv : Invocation} {accounts : AccountsFile}
    (h : (commands sdk keypairFiles).Run s invs s')
    (hl : (s'.invoke sdk keypairFiles inv).launched = s'.launched ++ [accounts]) :
    (∃ accountParams, inv.parameters.command = .run accountParams ∧
        accounts.payers = inv.created sdk keypairFiles ∧
        accounts.payers.length = accountParams.numPayers) ∨
      ∃ path, inv.parameters.command = .readAccountsRun path ∧
        (readAccountsFile s.files path = some accounts ∨
          ∃ earlier ∈ invs, earlier.Fills sdk keypairFiles path accounts.payers) := by
  have hstep := @invoke_step sdk keypairFiles s' inv
  have hone : (s'.invoke sdk keypairFiles inv).vault.launched =
      s'.vault.launched ++ [accounts.payers] := by
    simp only [Session.vault, hl, List.map_append, List.map_cons, List.map_nil]
  generalize (s'.invoke sdk keypairFiles inv).vault = v' at hstep hone
  cases hstep with
  | failed | stored | dumped =>
    have hlen := congrArg List.length hone
    simp at hlen
  | @launched accountParams hc hall =>
    have hpayers := List.singleton_inj.1 (List.append_cancel_left hone)
    rw [hpayers] at hall
    exact .inl ⟨accountParams, hc, hpayers.symm, hall⟩
  | @read path keys hc hkeys =>
    obtain rfl := List.singleton_inj.1 (List.append_cancel_left hone)
    refine .inr ⟨path, hc, ?_⟩
    obtain hv | hfilled := keys_origin (commands_refine h) hkeys
    · obtain ⟨read, hread, hpayers⟩ := Option.map_eq_some_iff.1 hv
      obtain rfl : read = accounts := congrArg AccountsFile.mk hpayers
      exact .inl hread
    · exact .inr hfilled

/-! ## Writing the accounts, then running with them -/

def invocation (command : Command) : Invocation :=
  ⟨⟨none, false, command⟩, oneEnv, Sender.plainPayer⟩

def writeOne : Invocation := invocation (.writeAccounts "accounts.json" ⟨1, 1⟩)
def readOne : Invocation := invocation (.readAccountsRun "accounts.json")

def noFiles : Session := ⟨fun _ => none, []⟩
def oneAccount : AccountsFile := ⟨[oneReplies.newKeypair 0 0]⟩

theorem writeOne_session : noFiles.invoke Sender.plainSdk (fun _ => none) writeOne =
    ⟨writeAccountsFile Sender.plainSdk (fun _ => none) "accounts.json" oneAccount, []⟩ := by
  have heph : createEphemeralAccounts Sender.plainSdk oneEnv Sender.plainPayer 1 1 false
      (.start fun _ => none) = some (.ok oneAccount, ⟨fun _ => none, [], oneProgress.sent⟩) := by
    simp [createEphemeralAccounts, one_create, oneAccount]
  simp [Session.invoke, run, writeOne, invocation, Invocation.authority, noFiles,
    createFilePersistedAccounts, heph, World.write, launchedBy]

theorem launched_origin_written :
    ∃ s', (commands Sender.plainSdk fun _ => none).Run noFiles [writeOne] s' ∧
      ∃ earlier ∈ [writeOne], earlier.Fills Sender.plainSdk (fun _ => none) "accounts.json"
        oneAccount.payers := by
  have hrun : (commands Sender.plainSdk fun _ => none).Run noFiles [writeOne]
      (noFiles.invoke Sender.plainSdk (fun _ => none) writeOne) := .single rfl
  refine ⟨_, hrun, ?_⟩
  have hl : ((noFiles.invoke Sender.plainSdk (fun _ => none) writeOne).invoke Sender.plainSdk
      (fun _ => none) readOne).launched =
        (noFiles.invoke Sender.plainSdk (fun _ => none) writeOne).launched ++ [oneAccount] := by
    rw [writeOne_session]
    simp [Session.invoke, run, readOne, invocation, Invocation.authority, read_write, launchedBy]
  obtain ⟨_, hc, -⟩ | ⟨path, hc, hread | hfilled⟩ := launched_origin hrun hl
  · cases hc
  · cases hread
  · cases hc
    exact hfilled

end TpuTools.Accounts
