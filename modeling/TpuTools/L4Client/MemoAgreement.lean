import TpuTools.L2Sender.BuildTx
import TpuTools.L2Subscriber.Classify

/-!
# Sender and receiver agree on a memo transaction

The sender writes id, slot and timestamp into the memo (`create_memo_transaction`) and
into the record it keeps (`buildTx`). When the transaction comes back from the stream,
the subscriber rebuilds them from the logs and classifies it by its account keys.
`memo_agreement`: both records agree on signature, id, slot, timestamp and type.
-/
namespace TpuTools.Client
open Sender Subscriber

/-- The update `u` carries the transaction `tx` back: its first signature, its fee payer as the
first account key, and as the first line of the logs that starts with `Program log: Memo` the one
the memo program writes for its memo instruction. -/
structure CarriesBack (sdk : Sdk) (u : TxWithTimestamps) (tx : Transaction)
    (info : SubscribeUpdateTransactionInfo) : Prop where
  transaction : u.tx.transaction = some info
  signature : ∃ signature, tx.signature0 sdk = some signature ∧ info.signature = signature.1
  accountKeys : ∃ body message rest, info.transaction = some body ∧
    body.message = some message ∧ message.accountKeys = tx.message.payer.1 :: rest
  logs : ∃ memo statusMeta before after len, tx.message.memo = some memo ∧
    info.statusMeta = some statusMeta ∧
    statusMeta.logMessages = before ++ memoLogLine len memo :: after ∧
    ∀ line ∈ before, isMemoLine line = false

/-- A payer that is no AMM program decides the type, whatever keys follow it. -/
theorem txTypeOf_payer {known : KnownAccounts} {info : SubscribeUpdateTransactionInfo}
    {body : TxBody} {message : TxMessage} {payer : Pubkey} {rest : List Bytes}
    (hb : info.transaction = some body) (hm : body.message = some message)
    (hk : message.accountKeys = payer.1 :: rest)
    (hamm : known.ammsPrograms.lookup payer = none) (ht : payer ∈ known.targetAccounts) :
    txTypeOf known info = some .targetTpu := by
  have hl : known.lookup payer = some .targetTpu := by
    simp [KnownAccounts.lookup, hamm, ht]
  simp [txTypeOf, hb, hm, hk, classifyAccounts, hl]

theorem memoOf_logs {logs before after : List String} {len txId slot ts : Nat}
    (hl : logs = before ++ memoLogLine len (memoText txId slot ts) :: after)
    (hb : ∀ line ∈ before, isMemoLine line = false)
    (hid : txId < 2 ^ 64) (hslot : slot < 2 ^ 64) (hts : ts < 2 ^ 64) :
    memoOf logs = some (txId, slot, ts) := by
  unfold memoOf
  rw [hl, extractMemoLine_append hb (isMemoLine_memoLogLine len _), Option.bind_some,
    parseMemoLog_memoLogLine len hid hslot hts]

/-- **Round trip.** The record rebuilt from the stream agrees with the record kept when
the transaction was built. -/
theorem memo_agreement {sdk : Sdk} {payers : List Keypair} {price : Option Nat}
    {st st' : BuildState} {slot ts id : Nat} {blockhash : Hash} {wire : Bytes}
    {sent : CSVRecord} {payer : Keypair} {tx : Transaction} {known : KnownAccounts}
    {u : TxWithTimestamps} {info : SubscribeUpdateTransactionInfo}
    (hb : buildTx sdk payers price st slot ts blockhash = some (st', id, wire, sent))
    (hp : cyclePayer payers st.payersTaken = some payer)
    (hc : memoTransaction sdk st.txId slot ts price payer blockhash = some tx)
    (hid : st.txId < 2 ^ 64) (hslot : slot < 2 ^ 64) (hts : ts < 2 ^ 64)
    (hamm : known.ammsPrograms.lookup (sdk.pubkey payer) = none)
    (ht : sdk.pubkey payer ∈ known.targetAccounts)
    (hu : CarriesBack sdk u tx info) :
    ∃ received, tryBuildCsvRecordWithClassification known u = some (.ok received) ∧
      received.signature = sent.signature ∧ received.transactionId = sent.transactionId ∧
      received.sentSlot = sent.sentSlot ∧ received.sentTimestamp = sent.sentTimestamp ∧
      received.txType = sent.txType := by
  obtain ⟨payer', signature', hp', hc', -, -, rfl⟩ := buildTx_spec hb
  obtain rfl : payer = payer' := by rw [hp] at hp'; exact Option.some.inj hp'
  obtain ⟨tx', hc', hsignature', -⟩ := createMemoTransaction_spec hc'
  obtain rfl : tx = tx' := by rw [hc] at hc'; exact Option.some.inj hc'
  obtain ⟨hinfo, ⟨signature, hsignature, hsig⟩, ⟨body, message, rest, hbody, hmsg, hkeys⟩,
    ⟨memo, statusMeta, before, after, len, hmemo, hm, hlogs, hbefore⟩⟩ := hu
  obtain rfl : signature = signature' := by
    rw [hsignature] at hsignature'; exact Option.some.inj hsignature'
  -- the memo instruction and the fee payer of `tx` are those of the record
  obtain rfl : memo = memoText st.txId slot ts := by
    rw [memo_memoTransaction hc] at hmemo; exact (Option.some.inj hmemo).symm
  have hpayer : tx.message.payer = sdk.pubkey payer := by rw [memoTransaction_spec hc]
  rw [hpayer] at hkeys
  have htype := txTypeOf_payer hbody hmsg hkeys hamm ht
  have hmemo := memoOf_logs hlogs hbefore hid hslot hts
  have hs : Signature.tryFrom info.signature = some signature := by
    rw [hsig, Signature.tryFrom_val]
  refine ⟨receivedRecord u info.index signature.toText .targetTpu (some (st.txId, slot, ts)),
    ?_, rfl, rfl, rfl, rfl, rfl⟩
  rw [tryBuild_of_hasData hinfo hm, hs, htype, hmemo]
  rfl

/-- The transaction of `plainPayer` with id 4, received next to unrelated log lines. -/
def plainInfo : SubscribeUpdateTransactionInfo where
  signature := List.replicate 64 7
  isVote := false
  transaction := some ⟨some ⟨[List.replicate 32 9, [1, 2, 3]]⟩⟩
  statusMeta := some ⟨["Program log: other", memoLogLine 7 (memoText 4 20 300), "Program log: Memo"]⟩
  index := 11

theorem memo_agreement_plain :
    ∃ received, tryBuildCsvRecordWithClassification
        ⟨[plainPayer.secret], [], propAmmsPrograms⟩ ⟨⟨some plainInfo, 21⟩, some 5, none⟩ =
          some (.ok received) ∧
      received.signature = (Signature.toText ⟨List.replicate 64 7, by decide⟩) ∧
      received.transactionId = some 4 ∧ received.sentSlot = some 20 ∧
      received.sentTimestamp = some 300 ∧ received.txType = some "TargetTpu" :=
  @memo_agreement plainSdk [plainPayer] (some 3) ⟨4, 4⟩ _ 20 300 _ plainHash _ _ plainPayer _ _ _
    plainInfo rfl rfl rfl (by decide) (by decide) (by decide) (by decide +kernel) (by decide)
    ⟨rfl, ⟨_, rfl, rfl⟩, ⟨_, _, _, rfl, rfl, rfl⟩,
      ⟨_, _, ["Program log: other"], ["Program log: Memo"], 7, rfl, rfl, rfl, by decide⟩⟩

end TpuTools.Client
