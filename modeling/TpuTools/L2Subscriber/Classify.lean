import TpuTools.L1Data.CsvRecord
import TpuTools.L1Data.Update
import TpuTools.L2Subscriber.Memo

/-!
# Building a record from a block transaction

`tryBuildCsvRecordWithClassification` (`rate-latency-tool/src/yellowstone_subscriber.rs`)
has three outcomes: a record, the error of an update without transaction or status
data, and a panic of one of its `unwrap`s (`none`): a signature that is not 64 bytes long,
or an account key that is not 32 bytes long and stands before the first known account.

* `tryBuild_ok_iff`: exactly when a record comes out.
* `tryBuild_spec`: what the record then holds.
-/
namespace TpuTools.Subscriber

/-- mirrors rate-latency-tool/src/yellowstone_subscriber.rs:351-355 -/
structure TxWithTimestamps where
  tx : SubscribeUpdateTransaction
  receivedTimestamp : Option Nat
  receivedSubscrTimestamp : Option Nat
  deriving DecidableEq

/-- mirrors rate-latency-tool/src/yellowstone_subscriber.rs:418-424 -/
inductive PropAMM where
  | humidifFi
  | solFi
  | tessera
  | goonFi
  | zeroFi
  deriving DecidableEq, Repr

/-- mirrors rate-latency-tool/src/yellowstone_subscriber.rs:405-415 -/
inductive TxType where
  | vote
  | targetTpu
  | jitoTip
  | propAMM (amm : PropAMM)
  | unclassifiedNonVote
  | unknown
  deriving DecidableEq, Repr

/-- The `Display` text.
mirrors rate-latency-tool/src/yellowstone_subscriber.rs:426-444 -/
def TxType.toText : TxType → String
  | .vote => "Vote"
  | .targetTpu => "TargetTpu"
  | .jitoTip => "JitoTip"
  | .propAMM .humidifFi => "HumidiFi"
  | .propAMM .solFi => "SolFi"
  | .propAMM .tessera => "Tessera"
  | .propAMM .goonFi => "GoonFi"
  | .propAMM .zeroFi => "ZeroFi"
  | .unclassifiedNonVote => "UnclassifiedNonVote"
  | .unknown => "Unknown"

inductive YellowstoneError where
  | emptyTransactionUpdate
  | unexpectedError
  deriving DecidableEq, Repr

/-- mirrors rate-latency-tool/src/yellowstone_subscriber.rs:554-578 -/
def propAmmsPrograms : List (Pubkey × PropAMM) :=
  [("9H6tua7jkLhdm3w8BvgpTn5LZNU7g4ZynDmCiNN3q6Rp", PropAMM.humidifFi),
    ("SoLFiHG9TfgtdUXUjWAxi3LtvYuFyDLVhBWxdMZxyCe", .solFi),
    ("TessVdML9pBGgG9yGks7o4HewRaXVAMuoVj4x83GLQH", .tessera),
    ("goonERTdGsjnkZqWuVjs73BZ3Pb9qoCUdBUL17BnS5j", .goonFi),
    ("ZERor4xhbUycZ6gb9ntrhqscUcZmAbQDjEAtCf4hbZY", .zeroFi)].filterMap
      fun (key, amm) => (Pubkey.fromStr key).map (·, amm)

/-- The account sets the emission tasks share: the payers, the Jito tip accounts fetched
at the start, and the AMM programs. -/
structure KnownAccounts where
  targetAccounts : List Pubkey
  jitoTipAccounts : List Pubkey
  ammsPrograms : List (Pubkey × PropAMM)

/-- What a key is known as; the order of the three checks is the source's.
mirrors rate-latency-tool/src/yellowstone_subscriber.rs:483-494 -/
def KnownAccounts.lookup (known : KnownAccounts) (account : Pubkey) : Option TxType :=
  match known.ammsPrograms.lookup account with
  | some amm => some (.propAMM amm)
  | none =>
    if account ∈ known.targetAccounts then some .targetTpu
    else if account ∈ known.jitoTipAccounts then some .jitoTip
    else none

/-- The loop over the account keys: the first known one decides. Keys are converted
one by one, so a malformed key after it is never looked at.
mirrors rate-latency-tool/src/yellowstone_subscriber.rs:478-495 -/
def classifyAccounts (known : KnownAccounts) : List Bytes → TxType → Option TxType
  | [], txType => some txType
  | key :: keys, txType =>
    match Pubkey.tryFrom key with
    | none => none
    | some account =>
      match known.lookup account with
      | some found => some found
      | none => classifyAccounts known keys txType

/-- mirrors rate-latency-tool/src/yellowstone_subscriber.rs:468-499 -/
def txTypeOf (known : KnownAccounts) (info : SubscribeUpdateTransactionInfo) : Option TxType :=
  let txType := if info.isVote then .vote else .unclassifiedNonVote
  match info.transaction.bind (·.message) with
  | some message => classifyAccounts known message.accountKeys txType
  | none => some txType

/-- The record of a received transaction; `memo` is what its memo line said, if any. -/
def receivedRecord (u : TxWithTimestamps) (index : Nat) (signature : String) (txType : TxType)
    (memo : Option (Nat × Nat × Nat)) : CSVRecord where
  signature := signature
  transactionId := memo.map (·.1)
  sentSlot := memo.map (·.2.1)
  receivedSlot := some u.tx.slot
  sentTimestamp := memo.map (·.2.2)
  receivedTimestamp := u.receivedTimestamp
  receivedSubscrTimestamp := u.receivedSubscrTimestamp
  indexInBlock := some index
  txStatus := []
  tick := none
  txType := some txType.toText
  numTransactionInBlock := none

/-- The memo of a transaction: the first memo line of its logs, parsed.
mirrors rate-latency-tool/src/yellowstone_subscriber.rs:501-504 -/
def memoOf (logs : List String) : Option (Nat × Nat × Nat) :=
  (extractMemoLine logs).bind parseMemoLog

/-- mirrors rate-latency-tool/src/yellowstone_subscriber.rs:446-535 -/
def tryBuildCsvRecordWithClassification (known : KnownAccounts) (u : TxWithTimestamps) :
    Option (Except YellowstoneError CSVRecord) :=
  match u.tx.transaction with
  | none => some (.error .emptyTransactionUpdate)
  | some info =>
    match info.statusMeta with
    | none => some (.error .emptyTransactionUpdate)
    | some statusMeta => do
      let signature ← Signature.tryFrom info.signature
      let txType ← txTypeOf known info
      pure (.ok (receivedRecord u info.index signature.toText txType (memoOf statusMeta.logMessages)))

/-! ## Outcomes -/

/-- The keys up to the first known account have 32 bytes. -/
def KeysOk (known : KnownAccounts) : List Bytes → Prop
  | [] => True
  | key :: keys => ∃ account, Pubkey.tryFrom key = some account ∧
      (known.lookup account = none → KeysOk known keys)

theorem classifyAccounts_isSome (known : KnownAccounts) :
    ∀ (keys : List Bytes) (txType : TxType),
      (classifyAccounts known keys txType).isSome = true ↔ KeysOk known keys
  | [], txType => by simp [classifyAccounts, KeysOk]
  | key :: keys, txType => by
    have ih := classifyAccounts_isSome known keys txType
    cases hk : Pubkey.tryFrom key with
    | none => simp [classifyAccounts, KeysOk, hk]
    | some account =>
      cases hl : known.lookup account with
      | some found => simp [classifyAccounts, KeysOk, hk, hl]
      | none => simp [classifyAccounts, KeysOk, hk, hl, ih]

theorem keysOk_of_length (known : KnownAccounts) {keys : List Bytes}
    (h : ∀ key ∈ keys, key.length = 32) : KeysOk known keys := by
  induction keys with
  | nil => trivial
  | cons key keys ih =>
    obtain ⟨account, ha⟩ := Option.isSome_iff_exists.1
      (FixedBytes.tryFrom_isSome.2 (h key List.mem_cons_self))
    exact ⟨account, ha, fun _ => ih fun k hk => h k (List.mem_cons_of_mem _ hk)⟩

/-- The account keys a transaction info carries, none without a message. -/
def accountKeysOf (info : SubscribeUpdateTransactionInfo) : List Bytes :=
  match info.transaction.bind (·.message) with
  | some message => message.accountKeys
  | none => []

theorem txTypeOf_isSome (known : KnownAccounts) (info : SubscribeUpdateTransactionInfo) :
    (txTypeOf known info).isSome = true ↔ KeysOk known (accountKeysOf info) := by
  unfold txTypeOf accountKeysOf
  cases info.transaction.bind (·.message) with
  | none => simp [KeysOk]
  | some message => simpa using classifyAccounts_isSome known message.accountKeys _

/-- The update carries both a transaction and its status data. -/
def HasData (u : TxWithTimestamps) : Prop :=
  ∃ info, u.tx.transaction = some info ∧ info.statusMeta.isSome = true

/-- None of the conversions that are unwrapped fails. -/
def ConvertsOk (known : KnownAccounts) (u : TxWithTimestamps) : Prop :=
  ∀ info, u.tx.transaction = some info →
    info.signature.length = 64 ∧ KeysOk known (accountKeysOf info)

/-- An update without data is an error value, whatever else it holds. -/
theorem tryBuild_of_not_hasData {known : KnownAccounts} {u : TxWithTimestamps}
    (h : ¬ HasData u) :
    tryBuildCsvRecordWithClassification known u = some (.error .emptyTransactionUpdate) := by
  unfold tryBuildCsvRecordWithClassification
  cases hi : u.tx.transaction with
  | none => rfl
  | some info =>
    cases hm : info.statusMeta with
    | none => simp only [hm]
    | some statusMeta => exact absurd ⟨info, hi, by simp [hm]⟩ h

/-- **Spec.** With data the outcome is a record or a panic; the record is decided by
signature, account keys and logs. -/
theorem tryBuild_of_hasData {known : KnownAccounts} {u : TxWithTimestamps}
    {info : SubscribeUpdateTransactionInfo} {statusMeta : TransactionStatusMeta}
    (hi : u.tx.transaction = some info) (hm : info.statusMeta = some statusMeta) :
    tryBuildCsvRecordWithClassification known u =
      (Signature.tryFrom info.signature).bind fun signature =>
        (txTypeOf known info).bind fun txType =>
          some (.ok (receivedRecord u info.index signature.toText txType
            (memoOf statusMeta.logMessages))) := by
  simp only [tryBuildCsvRecordWithClassification, hi, hm, Option.bind_eq_bind, Option.pure_def]

/-- A panic needs an update with data and a failing conversion. -/
theorem tryBuild_eq_none {known : KnownAccounts} {u : TxWithTimestamps} :
    tryBuildCsvRecordWithClassification known u = none ↔ HasData u ∧ ¬ ConvertsOk known u := by
  by_cases hd : HasData u
  · obtain ⟨info, hi, hm⟩ := hd
    obtain ⟨statusMeta, hm⟩ := Option.isSome_iff_exists.1 hm
    have hd : HasData u := ⟨info, hi, by simp [hm]⟩
    have hkeys := txTypeOf_isSome known info
    rw [tryBuild_of_hasData hi hm]
    constructor
    · intro h
      refine ⟨hd, fun hc => ?_⟩
      obtain ⟨hlen, hk⟩ := hc info hi
      obtain ⟨signature, hs⟩ := Option.isSome_iff_exists.1 (FixedBytes.tryFrom_isSome.2 hlen)
      obtain ⟨txType, ht⟩ := Option.isSome_iff_exists.1 (hkeys.2 hk)
      simp [Signature.tryFrom, hs, ht] at h
    · rintro ⟨-, hc⟩
      cases hs : Signature.tryFrom info.signature with
      | none => rfl
      | some signature =>
        cases ht : txTypeOf known info with
        | none => rfl
        | some txType =>
          refine absurd (fun info' hi' => ?_) hc
          rw [hi] at hi'; cases hi'
          exact ⟨FixedBytes.tryFrom_isSome.1 (Option.isSome_of_eq_some hs),
            hkeys.1 (Option.isSome_of_eq_some ht)⟩
  · simp [tryBuild_of_not_hasData hd, hd]

/-- A record comes out exactly of an update with data whose conversions succeed. -/
theorem tryBuild_ok_iff {known : KnownAccounts} {u : TxWithTimestamps} :
    (∃ record, tryBuildCsvRecordWithClassification known u = some (.ok record)) ↔
      HasData u ∧ ConvertsOk known u := by
  by_cases hd : HasData u
  · by_cases hc : ConvertsOk known u
    · obtain ⟨info, hi, hm⟩ := hd
      obtain ⟨statusMeta, hm⟩ := Option.isSome_iff_exists.1 hm
      obtain ⟨hlen, hk⟩ := hc info hi
      obtain ⟨signature, hs⟩ := Option.isSome_iff_exists.1 (FixedBytes.tryFrom_isSome.2 hlen)
      obtain ⟨txType, ht⟩ := Option.isSome_iff_exists.1 ((txTypeOf_isSome known info).2 hk)
      refine ⟨fun _ => ⟨⟨info, hi, by simp [hm]⟩, hc⟩, fun _ => ?_⟩
      rw [tryBuild_of_hasData hi hm]
      exact ⟨_, by simp [Signature.tryFrom, hs, ht]; rfl⟩
    · have hn := tryBuild_eq_none.2 ⟨hd, hc⟩
      simp [hn, hc]
  · simp [tryBuild_of_not_hasData hd, hd]

/-- What a record that comes out holds. -/
theorem tryBuild_spec {known : KnownAccounts} {u : TxWithTimestamps} {record : CSVRecord}
    (h : tryBuildCsvRecordWithClassification known u = some (.ok record)) :
    ∃ info statusMeta signature txType, u.tx.transaction = some info ∧
      info.statusMeta = some statusMeta ∧ Signature.tryFrom info.signature = some signature ∧
      txTypeOf known info = some txType ∧
      record = receivedRecord u info.index signature.toText txType
        (memoOf statusMeta.logMessages) := by
  have hd : HasData u := (tryBuild_ok_iff.1 ⟨record, h⟩).1
  obtain ⟨info, hi, hm⟩ := hd
  obtain ⟨statusMeta, hm⟩ := Option.isSome_iff_exists.1 hm
  rw [tryBuild_of_hasData hi hm] at h
  simp only [Option.bind_eq_some_iff, Option.some.injEq, Except.ok.injEq] at h
  obtain ⟨signature, hs, txType, ht, rfl⟩ := h
  exact ⟨info, statusMeta, signature, txType, hi, hm, hs, ht, rfl⟩

/-- The AMM table holds all five programs: every id of the source is a valid key. -/
example : propAmmsPrograms.map (·.2) = [.humidifFi, .solFi, .tessera, .goonFi, .zeroFi] := by
  decide +kernel

end TpuTools.Subscriber
