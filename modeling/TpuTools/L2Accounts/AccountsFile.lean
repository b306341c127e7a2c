import Mathlib.Logic.Function.Basic
import TpuTools.L1Data.Keys

/-!
# The accounts file (`tools-common/src/accounts_file.rs`)

Keypairs are written as their public key (text) and their 64 bytes, secret half first,
and read back from the first 32 of these. JSON is left out: a file holds an
`AccountsFileRaw`, what `serde_json` gives back for what it was given.

* `ofRaw_toRaw`: the conversions there and back.
* **`read_write`**: a written accounts file is read back as it was.
-/
namespace TpuTools.Accounts

/-- mirrors tools-common/src/accounts_file.rs:33-38 -/
structure AccountsFile where
  payers : List Keypair
  deriving DecidableEq

/-- mirrors tools-common/src/accounts_file.rs:170-176 -/
structure KeypairRaw where
  pubkey : String
  secretKey : Bytes
  deriving DecidableEq

/-- mirrors tools-common/src/accounts_file.rs:156-160 -/
structure AccountsFileRaw where
  payers : List KeypairRaw
  deriving DecidableEq

/-- What each path holds. -/
abbrev Files := String → Option AccountsFileRaw

variable (sdk : Sdk)

/-- mirrors tools-common/src/accounts_file.rs:185-192 -/
def KeypairRaw.ofKeypair (keypair : Keypair) : KeypairRaw where
  pubkey := (sdk.pubkey keypair).toText
  secretKey := keypair.secret.1 ++ (sdk.pubkey keypair).1

/-- `none` is the failed assertion on the length.
mirrors tools-common/src/accounts_file.rs:178-183 -/
def KeypairRaw.toKeypair (raw : KeypairRaw) : Option Keypair :=
  if raw.secretKey.length = 64 then
    (FixedBytes.tryFrom 32 (raw.secretKey.take 32)).map Keypair.mk
  else none

/-- mirrors tools-common/src/accounts_file.rs:162-168 -/
def AccountsFile.toRaw (accounts : AccountsFile) : AccountsFileRaw :=
  ⟨accounts.payers.map (KeypairRaw.ofKeypair sdk)⟩

/-- mirrors tools-common/src/accounts_file.rs:149-154 -/
def AccountsFile.ofRaw (raw : AccountsFileRaw) : Option AccountsFile :=
  (raw.payers.mapM KeypairRaw.toKeypair).map AccountsFile.mk

/-- `none` is a panic: no such file, or a key of another length.
mirrors tools-common/src/accounts_file.rs:40-52 -/
def readAccountsFile (files : Files) (path : String) : Option AccountsFile :=
  (files path).bind AccountsFile.ofRaw

/-- mirrors tools-common/src/accounts_file.rs:54-68 -/
def writeAccountsFile (files : Files) (path : String) (accounts : AccountsFile) : Files :=
  Function.update files path (some (accounts.toRaw sdk))

variable {sdk}

theorem KeypairRaw.toKeypair_ofKeypair (keypair : Keypair) :
    (KeypairRaw.ofKeypair sdk keypair).toKeypair = some keypair := by
  have hsecret := keypair.secret.2
  have hpubkey := (sdk.pubkey keypair).2
  have hlen : (KeypairRaw.ofKeypair sdk keypair).secretKey.length = 64 := by
    simp only [KeypairRaw.ofKeypair, List.length_append, hsecret, hpubkey]
  have htake : (KeypairRaw.ofKeypair sdk keypair).secretKey.take 32 = keypair.secret.1 :=
    List.take_left' hsecret
  rw [KeypairRaw.toKeypair, if_pos hlen, htake, FixedBytes.tryFrom_val]
  rfl

theorem ofRaw_toRaw (accounts : AccountsFile) :
    AccountsFile.ofRaw (accounts.toRaw sdk) = some accounts := by
  have key : ∀ payers : List Keypair,
      (payers.map (KeypairRaw.ofKeypair sdk)).mapM KeypairRaw.toKeypair = some payers := by
    intro payers
    induction payers with
    | nil => rfl
    | cons k ks ih =>
      rw [List.map_cons, List.mapM_cons, KeypairRaw.toKeypair_ofKeypair, ih]
      rfl
  rw [AccountsFile.ofRaw, AccountsFile.toRaw, key]
  rfl

/-- **A written accounts file is read back as it was.** -/
theorem read_write (files : Files) (path : String) (accounts : AccountsFile) :
    readAccountsFile (writeAccountsFile sdk files path accounts) path = some accounts := by
  rw [readAccountsFile, writeAccountsFile, Function.update_self, Option.bind_some, ofRaw_toRaw]

end TpuTools.Accounts
