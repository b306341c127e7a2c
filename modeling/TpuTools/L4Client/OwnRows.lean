import TpuTools.L4Client.FileText
import TpuTools.L4Client.MemoAgreement
import TpuTools.L4Client.Pacing

/-!
# The rows of the tool's own transactions

The tool measures by what comes back: id, slot and time of a transaction travel through the chain
in its memo, and the send status waits in the writer under the id. Here: for a chain that carries
the memos back, the file says of each transaction the tool has sent what it was sent with, and
gives no send status to any other.

**The chain (`Honest`).** A sent transaction comes back with its memo as the first memo line of
its logs, and no other transaction claims the id of a sent one. The second half is what the tool
relies on without a check (`foreign_join`).

* `received_rebuilt`: a block record holds signature and memo of an arrived transaction.
* **`own_rows`**: in every reachable state of the whole tool, each line of the file is about a
  sent transaction and agrees with what was sent, or is about another and has no send status.
-/
namespace TpuTools.Client
open Csv Subscriber Writer Sender

/-! ## What a block record holds -/

/-- Signature and logs of an arriving transaction. -/
def logged (u : Arrival) : Option (String × List String) :=
  match u.2.updateOneof with
  | some (.transaction tx) =>
    tx.transaction.bind fun info =>
      info.statusMeta.bind fun statusMeta =>
        (Signature.tryFrom info.signature).map fun signature =>
          (signature.toText, statusMeta.logMessages)
  | _ => none

/-- The claim of a transaction is in its logs. -/
theorem claimed_eq_logged (u : Arrival) :
    claimed u = (logged u).bind fun x => (memoOf x.2).map fun memo => (memo.1, x.1) := by
  unfold claimed logged
  cases u.2.updateOneof with
  | none => rfl
  | some update =>
    cases update with
    | transaction tx =>
      simp only [Option.bind_assoc, Option.bind_map]
      rfl
    | _ => rfl

/-- The record was rebuilt from signature and logs of an arrived transaction. -/
def Rebuilt (us : List Arrival) (r : CSVRecord) : Prop :=
  ∃ u ∈ us, ∃ logs, logged u = some (r.signature, logs) ∧
    r.transactionId = (memoOf logs).map (·.1) ∧ r.sentSlot = (memoOf logs).map (·.2.1) ∧
    r.sentTimestamp = (memoOf logs).map (·.2.2) ∧ r.txStatus = []

theorem rebuilt_of_tryBuild {known : KnownAccounts} {slot : Nat} {us : List Arrival} {u : Arrival}
    {v : TxWithTimestamps} {record : CSVRecord} (hmem : u ∈ us) (hu : txIn slot u = some v)
    (hr : tryBuildCsvRecordWithClassification known v = some (.ok record)) (tick count : Nat) :
    Rebuilt us (complete record tick count) := by
  obtain ⟨info, statusMeta, signature, txType, hi, hm, hs, -, rfl⟩ := tryBuild_spec hr
  refine ⟨u, hmem, statusMeta.logMessages, ?_, rfl, rfl, rfl, rfl⟩
  unfold txIn at hu
  split at hu
  · rename_i tx htx
    split at hu
    · cases hu
      have hi : tx.transaction = some info := hi
      simp only [logged, htx, hi, hm, hs, Option.bind_some, Option.map_some]
      rfl
    · cases hu
  · cases hu

theorem spawnedBy_rebuilt {checks : Bool} {known : KnownAccounts} {us : List Arrival} {u : Arrival}
    {task : EmissionTask} (h : task ∈ spawnedBy (process us) u) :
    ∀ r ∈ (emit checks known task).sent, Rebuilt us r := by
  obtain ⟨now, msg⟩ := u
  have hs := process_spawned us now msg
  rw [process_append, onMessage_spawned] at hs
  rw [List.append_cancel_left hs] at h
  split at h
  · simp only [Option.mem_toList, Option.map_eq_some_iff] at h
    obtain ⟨recording, hrec, rfl⟩ := h
    unfold emit
    cases recording.collectTicks checks with
    | none => simp
    | some ticks =>
      apply emitTxs_forall
      intro v hv record hbuilt tick _
      obtain ⟨w, hw, hwv⟩ := mem_recorder_txs hrec (mem_sortByKey.1 hv)
      exact rebuilt_of_tryBuild hw hwv hbuilt tick _
  · simp at h

theorem Rebuilt.mono {us vs : List Arrival} {r : CSVRecord} (h : Rebuilt us r) (hs : us ⊆ vs) :
    Rebuilt vs r := by
  obtain ⟨u, hu, hr⟩ := h
  exact ⟨u, hs hu, hr⟩

theorem received_rebuilt {checks : Bool} {known : KnownAccounts} {p : Pipeline}
    (h : (pipeline checks known).Reachable p) : ∀ r ∈ p.writer.received, Rebuilt p.arrived r := by
  have hsub (us : List Arrival) (u : Arrival) : us ⊆ us ++ [u] := List.subset_append_left _ _
  exact (onTheWay_reachable (fun us u r hr => hr.mono (hsub us u))
    (fun us u task ht r hr => (spawnedBy_rebuilt ht r hr).mono (hsub us u)) h).received

/-! ## What was handed over -/

variable {P : ToolParams} {s s' : Tool} {l : ToolLabel}

structure HandedFits (s : Tool) : Prop where
  id : s.client.build.txId < 2 ^ 64
  handed : ∀ p ∈ s.client.handed, Producible p

theorem handedFits_step (h : toolStep P s l = some s') (ht : Typed s l) (hH : HandedFits s) :
    HandedFits s' := by
  cases (tool_move h).2 with
  | @tick slot timestamp txStatus signature hs =>
    obtain ⟨hslot, htimestamp, hstatus⟩ := ht
    refine ⟨?_, ?_⟩
    · show (s.client.built.sendRecord _).build.txId < 2 ^ 64
      rcases sendRecord_cases s.client.built
        (tickRecord s.client signature.toText slot timestamp txStatus) with ⟨w, -, heq⟩ | heq
      · rw [heq]
        exact Nat.mod_lt _ (by decide)
      · rw [heq]
        exact Nat.mod_lt _ (by decide)
    · intro p hp
      rw [show (s.client.built.sendRecord _).handed = s.client.handed ++ _ from
        sendRecord_handed _ _] at hp
      rcases List.mem_append.1 hp with hp | hp
      · exact hH.handed p hp
      · rw [List.mem_singleton.1 hp]
        exact sentRecord_producible hH.id hslot htimestamp hstatus
  | _ => exact ⟨hH.id, hH.handed⟩

theorem handedFits_reachable (h : ((tool P).guard Typed).Reachable s) : HandedFits s := by
  refine LTS.Inductive.reachable (P := HandedFits) ⟨?_, ?_⟩ s h
  · intro s hs
    constructor
    · rw [started_client hs]
      exact Nat.two_pow_pos 64
    · rw [started_client hs]
      simp [RunClient.init]
  · intro s l s' hH hs
    exact handedFits_step hs.2 hs.1 hH

/-! ## The rows -/

/-- The first memo line of the logs is the memo of the sent record `p`. -/
def CarriesMemo (p : CSVRecord) (logs : List String) : Prop :=
  ∃ id ∈ p.transactionId, ∃ slot ∈ p.sentSlot, ∃ timestamp ∈ p.sentTimestamp,
    ∃ before len after, logs = before ++ memoLogLine len (memoText id slot timestamp) :: after ∧
      ∀ line ∈ before, isMemoLine line = false

/-- What is assumed of the chain (see the module doc). -/
structure Honest (s : Tool) : Prop where
  own : ∀ u ∈ s.arrived, ∀ p ∈ s.client.handed, ∀ logs, logged u = some (p.signature, logs) →
    CarriesMemo p logs
  foreign : ∀ u ∈ s.arrived, ∀ c ∈ claimed u, ∀ p ∈ s.client.handed,
    p.transactionId = some c.1 → p.signature = c.2

/-- The line says of the sent record `p` what it was sent with. -/
structure Agrees (p r : CSVRecord) : Prop where
  signature : r.signature = p.signature
  transactionId : r.transactionId = p.transactionId
  sentSlot : r.sentSlot = p.sentSlot
  sentTimestamp : r.sentTimestamp = p.sentTimestamp
  txStatus : r.txStatus = [] ∨ r.txStatus = p.txStatus

/-- A line about a transaction that was not sent has no send status. -/
structure Foreign (s : Tool) (r : CSVRecord) : Prop where
  signature : ∀ p ∈ s.client.handed, p.signature ≠ r.signature
  txStatus : r.txStatus = []

theorem memoOf_carriesMemo {p : CSVRecord} {logs : List String} (hp : Producible p)
    (h : CarriesMemo p logs) :
    p.transactionId = (memoOf logs).map (·.1) ∧ p.sentSlot = (memoOf logs).map (·.2.1) ∧
      p.sentTimestamp = (memoOf logs).map (·.2.2) := by
  obtain ⟨id, hid, slot, hslot, timestamp, htimestamp, before, len, after, hlogs, hbefore⟩ := h
  have hfits : ∀ number ∈ numbers p, ∀ n ∈ number, n < 2 ^ 64 := hp.numbers
  rw [memoOf_logs hlogs hbefore (hfits _ (by simp [numbers]) id hid)
    (hfits _ (by simp [numbers]) slot hslot) (hfits _ (by simp [numbers]) timestamp htimestamp)]
  exact ⟨hid, hslot, htimestamp⟩

/-- A block record with the signature of a sent one says what that was sent with. -/
theorem Rebuilt.agrees {r p : CSVRecord} (hr : Rebuilt s.arrived r) (hh : Honest s)
    (hmem : p ∈ s.client.handed) (hp : Producible p) (hsig : r.signature = p.signature) :
    Agrees p r := by
  obtain ⟨u, hu, logs, hlogged, hid, hslot, htimestamp, hstatus⟩ := hr
  rw [hsig] at hlogged
  obtain ⟨hid', hslot', htimestamp'⟩ := memoOf_carriesMemo hp (hh.own u hu p hmem logs hlogged)
  exact ⟨hsig, hid.trans hid'.symm, hslot.trans hslot'.symm, htimestamp.trans htimestamp'.symm,
    .inl hstatus⟩

/-- The entry a block record is joined with is its own. -/
theorem Rebuilt.own {r p : CSVRecord} (hr : Rebuilt s.arrived r) (hh : Honest s)
    (hmem : p ∈ s.client.handed) (hsome : p.transactionId.isSome = true)
    (hid : r.transactionId = p.transactionId) : r.signature = p.signature := by
  obtain ⟨u, hu, logs, hlogged, hmemo, -⟩ := hr
  obtain ⟨id, hpid⟩ := Option.isSome_iff_exists.1 hsome
  rw [hid, hpid] at hmemo
  obtain ⟨memo, hm, rfl⟩ := Option.map_eq_some_iff.1 hmemo.symm
  have hclaim : claimed u = some (memo.1, r.signature) := by
    rw [claimed_eq_logged, hlogged, Option.bind_some, hm, Option.map_some]
  exact (hh.foreign u hu _ hclaim p hmem hpid).symm

theorem row_agrees (h : ((tool P).guard Typed).Reachable s) (hfile : s.csvFile ≠ .failed)
    (hh : Honest s) {source : Source} {r : CSVRecord} (hr : (source, r) ∈ s.client.writer.rows) :
    (∃ p ∈ s.client.handed, Agrees p r) ∨ Foreign s r := by
  have hfits := (handedFits_reachable h).handed
  rcases row_cases h hfile hr with hr | ⟨block, pending, rfl, hblock, hpending⟩
  · exact .inl ⟨r, hr, rfl, rfl, rfl, rfl, .inr rfl⟩
  · have hbuilt := received_rebuilt (LTS.guard_reachable (tool_pipeline h hfile).1) block hblock
    cases pending with
    | some p =>
      obtain ⟨hmem, hsome, hid⟩ := hpending p rfl
      have hown := hbuilt.agrees hh hmem (hfits p hmem) (hbuilt.own hh hmem hsome hid)
      exact .inl ⟨p, hmem, hown.signature, hown.transactionId, hown.sentSlot, hown.sentTimestamp,
        .inr rfl⟩
    | none =>
      by_cases hsent : ∃ p ∈ s.client.handed, block.signature = p.signature
      · obtain ⟨p, hmem, hsig⟩ := hsent
        exact .inl ⟨p, hmem, hbuilt.agrees hh hmem (hfits p hmem) hsig⟩
      · obtain ⟨u, -, logs, -, -, -, -, hstatus⟩ := hbuilt
        exact .inr ⟨fun p hmem heq => hsent ⟨p, hmem, heq.symm⟩, hstatus⟩

/-- **Own rows.** In every reachable state of the whole tool, unless the file could not be created,
with a chain that carries the memos back, the file is read back as lines that agree with a sent
transaction or are about none. -/
theorem own_rows (h : ((tool P).guard Typed).Reachable s) (hfile : s.csvFile ≠ .failed)
    (hh : Honest s) :
    ∃ rs, readCsv (csvText s.client.writer.file) = some rs ∧
      ∀ r ∈ rs, (∃ p ∈ s.client.handed, Agrees p r) ∨ Foreign s r := by
  obtain ⟨hp, -⟩ := tool_pipeline h hfile
  have hP := produced_reachable hp
  obtain ⟨rs, hread, hsub⟩ := file_decodable (writer_reachable (LTS.guard_reachable hp)) hP.sent
    hP.received
  refine ⟨rs, hread, ?_⟩
  intro r hr
  obtain ⟨⟨source, row⟩, hrow, rfl⟩ := List.mem_map.1 (hsub.subset hr)
  exact row_agrees h hfile hh hrow

/-! ## A run -/

/-- A transaction is sent, and its record waits in the writer. -/
def sentLabels : List ToolLabel :=
  [.createFile true, .blockhash (some plainHash), .leaderUpdater true, .endpoint true,
    .tick 20 300 [(.sent, "leader")], .writer .trackInsert]

/-- It comes back in slot 21. -/
def ownSlot : List Arrival :=
  [(400, ⟨none, some (.slot ⟨21, 3⟩)⟩), (401, ⟨none, some (.entry ⟨21, 0, 1⟩)⟩),
    (402, ⟨none, some (.transaction ⟨some ⟨plainSignature.1, false, none,
      some ⟨[memoLogLine 8 (memoText 0 20 300)]⟩, 0⟩, 21⟩)⟩),
    (403, ⟨none, some (.blockMeta ⟨21, 1, 1⟩)⟩)]

/-- The emission task sends its record, which is joined and written. -/
def backLabels : List ToolLabel :=
  [.subscriber (.emitNext 0), .writer .blockTake, .writer .blockHandle, .writer .writerTake,
    .writer (.writeRow true), .writer (.flush true)]

/-- The record of the transaction in slot 21. -/
def ownRecord : CSVRecord :=
  ⟨plainSignature.toText, some 0, some 20, some 21, some 300, some 402, none, some 0, [], some 0,
    some "UnclassifiedNonVote", some 1⟩

theorem ownSlot_tasks :
    (process ownSlot).spawned.map (fun task => (emit true noAccounts task).sent) =
      [[ownRecord]] := by
  have hsplit : ownSlot = ownSlot.take 3 ++ [(403, ⟨none, some (.blockMeta ⟨21, 1, 1⟩)⟩)] := rfl
  have hnone : (process (ownSlot.take 3)).spawned = [] := by
    have h3 : ownSlot.take 3 = (([] ++ ownSlot.take 1) ++ (ownSlot.take 2).drop 1) ++
      (ownSlot.take 3).drop 2 := rfl
    rw [h3]
    simp only [ownSlot, List.take_succ_cons, List.take_zero, List.drop_succ_cons, List.drop_zero,
      process_spawned, List.append_nil]
    rfl
  have hrec : recorder 21 (ownSlot.take 3) = some ⟨21, [⟨⟨some ⟨plainSignature.1, false, none,
      some ⟨[memoLogLine 8 (memoText 0 20 300)]⟩, 0⟩, 21⟩, some 402, none⟩], [⟨0, 1⟩]⟩ := rfl
  rw [hsplit, process_spawned, hnone]
  simp only [hrec, Option.map_some, Option.toList_some, List.nil_append, List.map_cons,
    List.map_nil]
  decide +kernel

theorem ownSlot_fits : ∀ u ∈ ownSlot, Fits u := by
  simp [ownSlot, Fits]

/-- After messages alone, when none has arrived before. -/
def afterArrivals (P : ToolParams) (s : Tool) (us : List Arrival) : Tool :=
  { s with
    loop := process us
    tasks := (process us).spawned.map fun task => (emit P.checks P.known task).sent
    arrived := us }

theorem arrivals_tool (hopen : s.main.over = false) (ho : P.output = true)
    (he : s.subscriberEnding = none) (hl : s.loop = .init) (ht : s.tasks = [])
    (ha : s.arrived = []) (us : List Arrival) (hfits : ∀ u ∈ us, Fits u)
    (hfew : us.length < 2 ^ 64) :
    ((tool P).guard Typed).Run s (us.map fun u => .subscriber (.arrive u))
      (afterArrivals P s us) := by
  induction us using List.reverseRecOn with
  | nil =>
    have hs : afterArrivals P s [] = s := by
      show { s with loop := .init, tasks := [], arrived := [] } = s
      rw [← hl, ← ht, ← ha]
    rw [hs]
    exact .nil _
  | append_singleton us u ih =>
    rw [List.length_append, List.length_singleton] at hfew
    rw [List.map_append]
    refine (ih (fun w hw => hfits w (List.mem_append_left _ hw)) (by omega)).append (.single ?_)
    refine ⟨⟨hfits u (by simp), hfew⟩, ?_⟩
    show toolStep P _ (.subscriber (.arrive u)) = _
    simp [toolStep, stepOpen, afterArrivals, hopen, ho, he, isSubscriberLabel, pipelineStep,
      Tool.pipeline, Tool.withPipeline, process_append, onMessage_spawned]

theorem sentLabels_typed : ∀ l ∈ sentLabels, ∀ t, Typed t l := by
  simp [sentLabels, Typed, separators]

theorem backLabels_typed : ∀ l ∈ backLabels, ∀ t, Typed t l := by
  simp [backLabels, Typed]

theorem logged_ownSlot : ∀ u ∈ ownSlot, ∀ x ∈ logged u,
    x = (plainSignature.toText, [memoLogLine 8 (memoText 0 20 300)]) := by
  decide +kernel

/-- What the tool has handed over. -/
def ownSent : CSVRecord :=
  { sentRecord plainSignature.toText 0 20 300 with txStatus := [(.sent, "leader")] }

theorem ownSlot_written : ∃ s, ((tool tenSeconds).guard Typed).Reachable s ∧
    s.arrived = ownSlot ∧ s.client.handed = [ownSent] ∧
    s.client.writer.joined = [(ownRecord, some ownSent)] ∧ s.client.writer.file.length = 2 ∧
    s.csvFile = .created := by
  obtain ⟨s₀, hs₀, hopen, he, hl, ht, ha, s, hs, hview⟩ :
      ∃ s₀, LTS.exec (toolStep tenSeconds) (.init tenSeconds) sentLabels = some s₀ ∧
        s₀.main.over = false ∧ s₀.subscriberEnding = none ∧ s₀.loop = .init ∧ s₀.tasks = [] ∧
        s₀.arrived = [] ∧ ∃ s, LTS.exec (toolStep tenSeconds)
          { s₀ with loop := process ownSlot, tasks := [[ownRecord]], arrived := ownSlot }
          backLabels = some s ∧ s.arrived = ownSlot ∧ s.client.handed = [ownSent] ∧
        s.client.writer.joined = [(ownRecord, some ownSent)] ∧ s.client.writer.file.length = 2 ∧
        s.csvFile = .created :=
    ⟨_, rfl, rfl, rfl, rfl, rfl, rfl, _, rfl, rfl, rfl, rfl, rfl, rfl⟩
  have hback := @arrivals_tool tenSeconds s₀ hopen rfl he hl ht ha ownSlot ownSlot_fits (by decide)
  have hafter : afterArrivals tenSeconds s₀ ownSlot =
      { s₀ with loop := process ownSlot, tasks := [[ownRecord]], arrived := ownSlot } := by
    unfold afterArrivals
    rw [← ownSlot_tasks]
    rfl
  rw [← hafter] at hs
  have hsent : ((tool tenSeconds).guard Typed).Reachable s₀ :=
    ⟨_, _, .inl rfl, (LTS.run_of_exec _ _ _ _ _ hs₀).guarded sentLabels_typed⟩
  exact ⟨s, (hsent.run hback).run ((LTS.run_of_exec _ _ _ _ _ hs).guarded backLabels_typed),
    hview⟩

/-- The row of the transaction that came back agrees with what was sent. -/
theorem own_rows_tenSeconds : ∃ s, ((tool tenSeconds).guard Typed).Reachable s ∧ Honest s ∧
    s.client.writer.joined.length = 1 ∧ s.client.writer.file.length = 2 ∧
    ∃ rs, readCsv (csvText s.client.writer.file) = some rs ∧
      ∀ r ∈ rs, (∃ p ∈ s.client.handed, Agrees p r) ∨ Foreign s r := by
  obtain ⟨s, hreach, harrived, hhanded, hjoined, hlen, hfile⟩ := ownSlot_written
  have hhonest : Honest s := by
    refine ⟨?_, ?_⟩
    · intro u hu p hp logs hlogged
      rw [harrived] at hu
      rw [hhanded, List.mem_singleton] at hp
      obtain ⟨-, rfl⟩ := Prod.mk.inj (logged_ownSlot u hu _ hlogged)
      rw [hp]
      exact ⟨0, rfl, 20, rfl, 300, rfl, [], 8, [], rfl, by simp⟩
    · intro u hu c hc p hp _
      rw [harrived] at hu
      rw [hhanded, List.mem_singleton] at hp
      rw [claimed_eq_logged, Option.mem_def, Option.bind_eq_some_iff] at hc
      obtain ⟨x, hx, hc⟩ := hc
      obtain ⟨memo, -, rfl⟩ := Option.map_eq_some_iff.1 hc
      rw [logged_ownSlot u hu x hx, hp]
      rfl
  exact ⟨s, hreach, hhonest, by rw [hjoined]; rfl, hlen,
    own_rows hreach (by rw [hfile]; exact CsvFile.noConfusion) hhonest⟩

end TpuTools.Client
