import TpuTools.Core.Base58

/-!
# Keys, signatures and transactions

The parts of the Solana SDK the tools rest on. Byte arrays of a fixed length are
subtypes, so a `Pubkey` always has 32 bytes and a `Signature` 64; `Pubkey.tryFrom` and
`Signature.tryFrom` are the checked conversions of the SDK.

What the tools never look into is a parameter (`Sdk`): the public key of a secret, the
bytes of a message that are signed, the signature, the wire format, and which transactions
the SDK refuses (it panics on a message of too many signers, for one).
-/
namespace TpuTools

abbrev Bytes := List UInt8

/-- A byte array `[u8; n]`. -/
abbrev FixedBytes (n : Nat) := {b : Bytes // b.length = n}

abbrev Pubkey := FixedBytes 32

abbrev Signature := FixedBytes 64

abbrev Hash := FixedBytes 32

/-- `<[u8; n]>::try_from(slice)` -/
def FixedBytes.tryFrom (n : Nat) (b : Bytes) : Option (FixedBytes n) :=
  if h : b.length = n then some ⟨b, h⟩ else none

/-- `Pubkey::try_from(slice)` -/
def Pubkey.tryFrom (b : Bytes) : Option Pubkey := FixedBytes.tryFrom 32 b

/-- `Signature::try_from(slice)` -/
def Signature.tryFrom (b : Bytes) : Option Signature := FixedBytes.tryFrom 64 b

/-- `signature.to_string()` -/
def Signature.toText (s : Signature) : String := Base58.encode s.1

/-- `pubkey.to_string()` -/
def Pubkey.toText (k : Pubkey) : String := Base58.encode k.1

/-- `Pubkey::from_str` -/
def Pubkey.fromStr (s : String) : Option Pubkey := (Base58.decode s).bind Pubkey.tryFrom

@[simp] theorem FixedBytes.tryFrom_val {n : Nat} (b : FixedBytes n) :
    FixedBytes.tryFrom n b.1 = some b := by
  simp [FixedBytes.tryFrom, b.2]

@[simp] theorem Signature.tryFrom_val (s : Signature) : Signature.tryFrom s.1 = some s :=
  FixedBytes.tryFrom_val s

@[simp] theorem Pubkey.tryFrom_val (k : Pubkey) : Pubkey.tryFrom k.1 = some k :=
  FixedBytes.tryFrom_val k

theorem FixedBytes.tryFrom_isSome {n : Nat} {b : Bytes} :
    (FixedBytes.tryFrom n b).isSome = true ↔ b.length = n := by
  unfold FixedBytes.tryFrom
  split <;> simp [*]

/-- A keypair is its 32 secret bytes; the public half is derived. -/
structure Keypair where
  secret : FixedBytes 32
  deriving DecidableEq

/-- The instructions the tools build, with every argument they are given. -/
inductive Instruction where
  | setComputeUnitLimit (units : Nat)
  | setComputeUnitPrice (microLamports : Nat)
  | setLoadedAccountsDataSizeLimit (bytes : Nat)
  | memo (data : String)
  | transfer (source receiver : Pubkey) (lamports : Nat)
  | createAccount (source account : Pubkey) (lamports space : Nat)
  deriving DecidableEq

/-- A message before it is signed. -/
structure Message where
  instructions : List Instruction
  payer : Pubkey
  recentBlockhash : Hash
  deriving DecidableEq

/-- A signed transaction: its message and the keypairs that signed it, as passed to
`Transaction::new_signed_with_payer` / `Transaction::new`. -/
structure Transaction where
  message : Message
  signers : List Keypair
  deriving DecidableEq

/-- The SDK functions the tools call. -/
structure Sdk where
  /-- `keypair.pubkey()` -/
  pubkey : Keypair → Pubkey
  /-- the bytes of a message that get signed -/
  messageData : Message → Bytes
  /-- `keypair.sign_message(bytes)` -/
  sign : Keypair → Bytes → Signature
  /-- `Transaction::new_signed_with_payer` compiles and signs this message without a panic -/
  signs : Message → List Keypair → Bool
  /-- `bincode::serialize(&tx).ok()` -/
  serialize : Transaction → Option Bytes

/-- `Transaction::new_signed_with_payer(instructions, Some(payer), signers, blockhash)`; `none`
is a panic. -/
def Transaction.newSignedWithPayer (sdk : Sdk) (instructions : List Instruction) (payer : Pubkey)
    (signers : List Keypair) (recentBlockhash : Hash) : Option Transaction :=
  if sdk.signs ⟨instructions, payer, recentBlockhash⟩ signers then
    some ⟨⟨instructions, payer, recentBlockhash⟩, signers⟩
  else none

/-- The SDK signs the transaction and serializes it. -/
def Sdk.Takes (sdk : Sdk) (tx : Transaction) : Prop :=
  sdk.signs tx.message tx.signers = true ∧ (sdk.serialize tx).isSome = true

/-- The text of the first memo instruction. -/
def Message.memo (message : Message) : Option String :=
  message.instructions.findSome? fun
    | .memo data => some data
    | _ => none

/-- `tx.signatures[0]`: the signature of the fee payer, by the signer that has its key. -/
def Transaction.signature0 (sdk : Sdk) (tx : Transaction) : Option Signature :=
  (tx.signers.find? fun k => sdk.pubkey k = tx.message.payer).map fun k =>
    sdk.sign k (sdk.messageData tx.message)

theorem Transaction.newSignedWithPayer_eq_some {sdk : Sdk} {instructions : List Instruction}
    {payer : Pubkey} {signers : List Keypair} {recentBlockhash : Hash} {tx : Transaction} :
    newSignedWithPayer sdk instructions payer signers recentBlockhash = some tx ↔
      sdk.signs tx.message tx.signers = true ∧
        tx = ⟨⟨instructions, payer, recentBlockhash⟩, signers⟩ := by
  unfold newSignedWithPayer
  constructor
  · intro h
    split at h
    · rename_i hsigns
      cases h
      exact ⟨hsigns, rfl⟩
    · cases h
  · rintro ⟨hsigns, rfl⟩
    exact if_pos hsigns

end TpuTools
