import TpuTools.L3Writer.CsvText
import TpuTools.L4Client.ToolResult

/-!
# The text of the output file, for the whole tool

`CsvText` reads a file back when the records of both channels are producible. The tool sends no
others, as long as the numbers of the messages and of the ticks fit their types and the leaders'
addresses have none of the characters the file uses between them.

* `emit_producible`: what an emission task sends.
* `onTheWay_reachable`: what holds of the records of every task holds of all block records.
* `tool_pipeline`: unless the file cannot be created, subscriber and writer of the tool are the
  ones of `OwnJoin`.
* **`file_readable`**: then at any time, however the tasks interleave and fail, the file is read
  back, and each of its lines is about a sent transaction or one that arrived.
-/
namespace TpuTools.Client
open Csv Subscriber Writer Sender Ints

/-! ## The records of an emission task -/

/-- The numbers of a message fit their types. -/
def Fits (u : Arrival) : Prop :=
  u.1 < 2 ^ 64 ∧
    match u.2.updateOneof with
    | some (.transaction tx) => tx.slot < 2 ^ 64 ∧ ∀ info ∈ tx.transaction, info.index < 2 ^ 64
    | some (.blockMeta blockMeta) => blockMeta.executedTransactionCount < 2 ^ 64
    | _ => True

theorem complete_producible {record : CSVRecord} {tick count : Nat} (h : Producible record)
    (ht : tick < 2 ^ 64) (hc : count < 2 ^ 64) : Producible (complete record tick count) where
  signature := h.signature
  numbers := by
    intro number hnumber n hn
    simp only [numbers, complete, List.mem_cons, List.not_mem_nil, or_false] at hnumber
    rcases hnumber with rfl | rfl | rfl | rfl | rfl | rfl | rfl | rfl | rfl
    iterate 7 exact h.numbers _ (by simp [numbers]) n hn
    · cases hn
      exact ht
    · cases hn
      exact hc
  txStatus := h.txStatus
  txType := h.txType

theorem receivedSubscrTimestamp_lt {u : SubscribeUpdate} {n : Nat}
    (h : u.receivedSubscrTimestamp = some n) : n < 2 ^ 64 := by
  obtain ⟨ts, -, hts⟩ := Option.bind_eq_some_iff.1 h
  simp only [ite_eq_iff, reduceCtorEq, and_false, false_or, Option.some.injEq] at hts
  rw [← hts.2]
  exact Nat.mod_lt _ (by decide)

theorem built_producible {known : KnownAccounts} {slot : Nat} {u : Arrival} {v : TxWithTimestamps}
    {record : CSVRecord} (hu : txIn slot u = some v) (hf : Fits u)
    (hr : tryBuildCsvRecordWithClassification known v = some (.ok record)) :
    Producible record := by
  obtain ⟨info, statusMeta, signature, txType, hi, -, -, -, rfl⟩ := tryBuild_spec hr
  obtain ⟨hnow, hmsg⟩ := hf
  unfold txIn at hu
  split at hu
  · rename_i tx htx
    rw [htx] at hmsg
    split at hu
    · cases hu
      refine receivedRecord_producible hmsg.1 (hmsg.2 info hi) ?_ ?_
      · rintro n ⟨⟩
        exact hnow
      · exact fun n hn => receivedSubscrTimestamp_lt hn
    · cases hu
  · cases hu

/-- What holds of the record of each transaction holds of what the task sends. -/
theorem emitTxs_forall {known : KnownAccounts} {ticks : List Nat} {count : Nat}
    {Q : CSVRecord → Prop} : ∀ {vs : List TxWithTimestamps},
      (∀ v ∈ vs, ∀ record, tryBuildCsvRecordWithClassification known v = some (.ok record) →
        ∀ tick ∈ ticks, Q (complete record tick count)) →
      ∀ r ∈ (emitTxs known ticks count vs).sent, Q r
  | [], _, r, hr => by simp [emitTxs] at hr
  | v :: vs, hQ, r, hr => by
    have hrest : ∀ r ∈ (emitTxs known ticks count vs).sent, Q r :=
      emitTxs_forall fun w hw => hQ w (List.mem_cons_of_mem _ hw)
    rcases emitTxs_cons known ticks count v vs with
      ⟨-, he⟩ | ⟨-, he⟩ | ⟨record, tick, hbuilt, htick, -, -, he⟩
    · rw [he] at hr
      exact hrest r hr
    · rw [he] at hr
      simp at hr
    · rw [he] at hr
      rcases List.mem_cons.1 hr with rfl | hr
      · exact hQ v List.mem_cons_self record hbuilt tick (List.mem_of_getElem? htick)
      · exact hrest r hr

theorem recorder_entries_length {slot : Nat} : ∀ {us : List Arrival} {recording : SlotRecording},
    recorder slot us = some recording → recording.entries.length ≤ us.length := by
  intro us
  induction us using List.reverseRecOn with
  | nil => intro recording h; simp [recorder] at h
  | append_singleton us u ih =>
    intro recording h
    rw [recorder_append] at h
    unfold recorderStep at h
    split at h
    · cases h
    · split at h
      · split at h
        · cases h
          exact Nat.zero_le _
        · cases h
      · rename_i recording' hr
        cases h
        have hle := ih hr
        have hone : (entryIn slot u).toList.length ≤ 1 := by
          cases entryIn slot u <;> simp
        simp only [List.length_append, List.length_singleton]
        omega

/-- The tasks spawned after fewer than `2 ^ 64` messages send producible records. -/
theorem emit_producible {checks : Bool} {known : KnownAccounts} {us : List Arrival} {u : Arrival}
    {task : EmissionTask} (h : task ∈ spawnedBy (process us) u) (hu : Fits u)
    (hus : ∀ w ∈ us, Fits w) (hfew : us.length < 2 ^ 64) :
    ∀ r ∈ (emit checks known task).sent, Producible r := by
  obtain ⟨now, msg⟩ := u
  have hs := process_spawned us now msg
  rw [process_append, onMessage_spawned] at hs
  rw [List.append_cancel_left hs] at h
  split at h
  · rename_i blockMeta hmeta
    obtain ⟨-, hcount⟩ := hu
    simp only [hmeta] at hcount
    simp only [Option.mem_toList, Option.map_eq_some_iff] at h
    obtain ⟨recording, hrec, rfl⟩ := h
    have hentries := recorder_entries_length hrec
    unfold emit
    cases ht : recording.collectTicks checks with
    | none => simp
    | some ticks =>
      apply emitTxs_forall
      intro v hv record hbuilt tick htick
      obtain ⟨w, hw, hwv⟩ := mem_recorder_txs hrec (mem_sortByKey.1 hv)
      have hle := findTxTicks_le checks ht tick htick
      rw [(sortByKey_perm _ _).length_eq] at hle
      exact complete_producible (built_producible hwv (hus w hw) hbuilt) (by omega) hcount
  · simp at h

/-! ## The pipeline -/

/-- What comes in fits: the messages, and the records the scheduler sends. -/
def Inputs (s : Pipeline) : PipelineLabel → Prop
  | .arrive u => Fits u ∧ s.arrived.length + 1 < 2 ^ 64
  | .writer (.sendTracked record) => Producible record
  | _ => True

structure Produced (s : Pipeline) : Prop where
  arrived : ∀ u ∈ s.arrived, Fits u
  few : s.arrived.length < 2 ^ 64
  tasks : ∀ task ∈ s.tasks, ∀ r ∈ task, Producible r
  received : ∀ r ∈ s.writer.received, Producible r
  sent : ∀ r ∈ s.writer.sent, Producible r

/-- What a step adds to the messages. -/
def PipelineLabel.arrives : PipelineLabel → List Arrival
  | .arrive u => [u]
  | _ => []

/-- What a step adds to the tracker channel. -/
def PipelineLabel.sends : PipelineLabel → List CSVRecord
  | .writer wl => wl.sends
  | _ => []

theorem pipelineStep_inputs {checks : Bool} {known : KnownAccounts} {p p' : Pipeline}
    {pl : PipelineLabel} (h : pipelineStep checks known p pl = some p') :
    p'.arrived = p.arrived ++ pl.arrives ∧ p'.writer.sent = p.writer.sent ++ pl.sends := by
  cases pl with
  | arrive u =>
    simp only [pipelineStep] at h
    split at h
    · cases h
    · cases h
      exact ⟨rfl, (List.append_nil _).symm⟩
  | stop =>
    cases h
    exact ⟨(List.append_nil _).symm, (List.append_nil _).symm⟩
  | emitNext i =>
    simp only [pipelineStep] at h
    split at h
    · split at h
      · cases h
        exact ⟨(List.append_nil _).symm, (List.append_nil _).symm⟩
      · obtain ⟨w, hw, rfl⟩ := Option.map_eq_some_iff.1 h
        obtain ⟨-, rfl⟩ := of_guard hw
        exact ⟨(List.append_nil _).symm, (List.append_nil _).symm⟩
    · cases h
  | dropSenders =>
    simp only [pipelineStep] at h
    split at h
    · obtain ⟨w, hw, rfl⟩ := Option.map_eq_some_iff.1 h
      cases hw
      exact ⟨(List.append_nil _).symm, (List.append_nil _).symm⟩
    · cases h
  | writer wl =>
    simp only [pipelineStep] at h
    split at h
    · obtain ⟨w, hw, rfl⟩ := Option.map_eq_some_iff.1 h
      exact ⟨(List.append_nil _).symm, (step_channels hw).1⟩
    · cases h

/-- The records the emission tasks still have to send, and those they have sent, are as `Q` says
of the messages so far. -/
structure OnTheWay (Q : List Arrival → CSVRecord → Prop) (p : Pipeline) : Prop where
  tasks : ∀ task ∈ p.tasks, ∀ r ∈ task, Q p.arrived r
  received : ∀ r ∈ p.writer.received, Q p.arrived r

section OnTheWay
variable {Q : List Arrival → CSVRecord → Prop} {checks : Bool} {known : KnownAccounts}
  (hlater : ∀ us u r, Q us r → Q (us ++ [u]) r)
  (hspawned : ∀ us u, ∀ task ∈ spawnedBy (process us) u, ∀ r ∈ (emit checks known task).sent,
    Q (us ++ [u]) r)
include hlater hspawned

theorem onTheWay_step {p p' : Pipeline} {pl : PipelineLabel}
    (h : pipelineStep checks known p pl = some p') (hS : Sources p) (hO : OnTheWay Q p) :
    OnTheWay Q p' := by
  cases pl with
  | arrive u =>
    simp only [pipelineStep] at h
    split at h
    · cases h
    · cases h
      refine ⟨?_, fun r hr => hlater _ u r (hO.received r hr)⟩
      intro task ht r hr
      rcases List.mem_append.1 ht with ht | ht
      · exact hlater _ u r (hO.tasks task ht r hr)
      · obtain ⟨t, htm, rfl⟩ := List.mem_map.1 ht
        rw [hS.loop] at htm
        exact hspawned _ u t htm r hr
  | stop =>
    cases h
    exact ⟨hO.tasks, hO.received⟩
  | emitNext i =>
    simp only [pipelineStep] at h
    split at h
    · rename_i r rest hi
      have hmem : r :: rest ∈ p.tasks := List.mem_of_getElem? hi
      have htasks : ∀ task ∈ p.tasks.set i rest, ∀ q ∈ task, Q p.arrived q := by
        intro task ht q hq
        rcases List.mem_or_eq_of_mem_set ht with ht | rfl
        · exact hO.tasks task ht q hq
        · exact hO.tasks _ hmem q (List.mem_cons_of_mem _ hq)
      split at h
      · cases h
        exact ⟨htasks, hO.received⟩
      · obtain ⟨w, hw, rfl⟩ := Option.map_eq_some_iff.1 h
        obtain ⟨-, rfl⟩ := of_guard hw
        refine ⟨htasks, ?_⟩
        intro q hq
        rcases List.mem_append.1 hq with hq | hq
        · exact hO.received q hq
        · rw [List.mem_singleton.1 hq]
          exact hO.tasks _ hmem r List.mem_cons_self
    · cases h
  | dropSenders =>
    simp only [pipelineStep] at h
    split at h
    · obtain ⟨w, hw, rfl⟩ := Option.map_eq_some_iff.1 h
      cases hw
      exact ⟨hO.tasks, hO.received⟩
    · cases h
  | writer wl =>
    simp only [pipelineStep] at h
    split at h
    · rename_i hwl
      obtain ⟨w, hw, rfl⟩ := Option.map_eq_some_iff.1 h
      have hnone : wl.receives = [] := by cases wl <;> first | rfl | cases hwl
      have hreceived : w.received = p.writer.received := by
        rw [(step_channels hw).2, hnone, List.append_nil]
      exact ⟨hO.tasks, fun r hr => hO.received r (hreceived ▸ hr)⟩
    · cases h

theorem onTheWay_reachable {p : Pipeline} (h : (pipeline checks known).Reachable p) :
    OnTheWay Q p := by
  refine LTS.InductiveOver.reachable (Q := Sources) ⟨?_, ?_⟩ (fun _ => sources_reachable) p h
  · intro p hp
    rw [show p = .init from hp]
    exact ⟨by simp [Pipeline.init], by simp [Pipeline.init, CsvWriter.init]⟩
  · intro p pl p' hS hO hs
    exact onTheWay_step hlater hspawned hs hS hO

end OnTheWay

/-- What has come in fits. -/
structure Given (p : Pipeline) : Prop where
  arrived : ∀ u ∈ p.arrived, Fits u
  few : p.arrived.length < 2 ^ 64
  sent : ∀ r ∈ p.writer.sent, Producible r

theorem given_step {checks : Bool} {known : KnownAccounts} {p p' : Pipeline} {pl : PipelineLabel}
    (h : pipelineStep checks known p pl = some p') (hi : Inputs p pl) (hG : Given p) :
    Given p' := by
  obtain ⟨ha, hw⟩ := pipelineStep_inputs h
  refine ⟨?_, ?_, ?_⟩
  · rw [ha]
    intro u hu
    rcases List.mem_append.1 hu with hu | hu
    · exact hG.arrived u hu
    · cases pl with
      | arrive w =>
        rw [List.mem_singleton.1 hu]
        exact hi.1
      | _ => cases hu
  · rw [ha]
    cases pl with
    | arrive w => simpa [PipelineLabel.arrives] using hi.2
    | _ => simpa [PipelineLabel.arrives] using hG.few
  · rw [hw]
    intro r hr
    rcases List.mem_append.1 hr with hr | hr
    · exact hG.sent r hr
    · cases pl with
      | writer wl =>
        cases wl with
        | sendTracked record =>
          rw [List.mem_singleton.1 hr]
          exact hi
        | _ => cases hr
      | _ => cases hr

theorem given_reachable {checks : Bool} {known : KnownAccounts} {p : Pipeline}
    (h : ((pipeline checks known).guard Inputs).Reachable p) : Given p := by
  refine LTS.Inductive.reachable (P := Given) ⟨?_, ?_⟩ p h
  · intro p hp
    rw [show p = .init from hp]
    exact ⟨by simp [Pipeline.init], by simp [Pipeline.init],
      by simp [Pipeline.init, CsvWriter.init]⟩
  · intro p pl p' hG hs
    exact given_step hs.2 hs.1 hG

theorem produced_reachable {checks : Bool} {known : KnownAccounts} {p : Pipeline}
    (h : ((pipeline checks known).guard Inputs).Reachable p) : Produced p := by
  have hG := given_reachable h
  have hO : OnTheWay
      (fun us r => (∀ u ∈ us, Fits u) → us.length < 2 ^ 64 → Producible r) p := by
    refine onTheWay_reachable ?_ ?_ (LTS.guard_reachable h)
    · intro us u r hr hfits hfew
      rw [List.length_append] at hfew
      exact hr (fun w hw => hfits w (List.mem_append_left _ hw)) (by omega)
    · intro us u task ht r hr hfits hfew
      rw [List.length_append] at hfew
      exact emit_producible ht (hfits u (by simp))
        (fun w hw => hfits w (List.mem_append_left _ hw)) (by omega) r hr
  exact ⟨hG.arrived, hG.few, fun task ht r hr => hO.tasks task ht r hr hG.arrived hG.few,
    fun r hr => hO.received r hr hG.arrived hG.few, hG.sent⟩

/-! ## The tool -/

/-- The messages fit, and so do the slot, the time and the addresses of a tick. -/
def Typed (s : Tool) : ToolLabel → Prop
  | .subscriber (.arrive u) => Fits u ∧ s.arrived.length + 1 < 2 ^ 64
  | .tick slot timestamp txStatus => slot < 2 ^ 64 ∧ timestamp < 2 ^ 64 ∧
      ∀ send ∈ txStatus, ∀ c ∈ separators, c ∉ send.2.toList
  | _ => True

variable {P : ToolParams} {s s' : Tool} {l : ToolLabel}

/-- The subscriber and the writer of the tool, with what the scheduler knows of the records. -/
structure Seen (s : Tool) (p : Pipeline) : Prop where
  pipeline : p = s.pipeline
  id : s.client.build.txId < 2 ^ 64
  handed : s.client.writer.sent ⊆ s.client.handed

theorem subscriber_stopped {checks : Bool} {known : KnownAccounts} {p p' : Pipeline}
    {pl : PipelineLabel} (h : pipelineStep checks known p pl = some p')
    (hpl : isSubscriberLabel pl = true) : p'.stopped = p.stopped := by
  cases pl with
  | arrive u =>
    simp only [pipelineStep] at h
    split at h
    · cases h
    · cases h
      rfl
  | emitNext i =>
    simp only [pipelineStep] at h
    split at h
    · split at h
      · cases h
        rfl
      · obtain ⟨w, -, rfl⟩ := Option.map_eq_some_iff.1 h
        rfl
    · cases h
  | dropSenders =>
    simp only [pipelineStep] at h
    split at h
    · obtain ⟨w, -, rfl⟩ := Option.map_eq_some_iff.1 h
      rfl
    · cases h
  | stop | writer => cases hpl

theorem pipeline_withPipeline {p : Pipeline} (h : p.stopped = s.subscriberEnding.isSome) :
    (s.withPipeline p).pipeline = p := by
  obtain ⟨loop, tasks, stopped, writer, arrived⟩ := p
  obtain rfl : stopped = s.subscriberEnding.isSome := h
  rfl

theorem seen_step {p : Pipeline} (hseen : Seen s p) (ht : Typed s l)
    (h : toolStep P s l = some s') (hfile : s'.csvFile ≠ .failed) :
    ∃ pls p', ((pipeline P.checks P.known).guard Inputs).Run p pls p' ∧ Seen s' p' := by
  obtain ⟨rfl, hid, hhanded⟩ := hseen
  cases (tool_move h).2 with
  | noEndpoint | tickEnds | schedulerEnds =>
    exact ⟨[.writer .dropTracker], _, .single ⟨trivial, rfl⟩, rfl, hid, hhanded⟩
  | stopAll | delayElapsed | signal | joinFailed =>
    exact ⟨[.writer .cancel], _, .single ⟨trivial, rfl⟩, rfl, hid, hhanded⟩
  | @tick slot timestamp txStatus signature hs =>
    obtain ⟨hslot, htimestamp, hstatus⟩ := ht
    have hid' : s.client.built.build.txId < 2 ^ 64 := Nat.mod_lt _ (by decide)
    rcases sendRecord_cases s.client.built
      (tickRecord s.client signature.toText slot timestamp txStatus) with ⟨w, hw, heq⟩ | heq
    · rw [heq]
      have hw : step s.client.writer (.sendTracked
          (tickRecord s.client signature.toText slot timestamp txStatus)) = some w := hw
      refine ⟨[.writer (.sendTracked
        (tickRecord s.client signature.toText slot timestamp txStatus))],
        { s.pipeline with writer := w }, .single ⟨?_, ?_⟩, rfl, hid', ?_⟩
      · exact sentRecord_producible hid hslot htimestamp hstatus
      · exact congrArg (Option.map fun w => { s.pipeline with writer := w }) hw
      · intro r hr
        rw [show w.sent = _ from (step_channels hw).1] at hr
        rcases List.mem_append.1 hr with hr | hr
        · exact List.mem_append_left _ (hhanded hr)
        · exact List.mem_append_right _ hr
    · rw [heq]
      exact ⟨[], _, .nil _, rfl, hid', fun r hr => List.mem_append_left _ (hhanded hr)⟩
  | fileFailed => exact absurd rfl hfile
  | @writer wl w _ hown hwl hw =>
    refine ⟨[.writer wl], { s.pipeline with writer := w }, .single ⟨?_, ?_⟩, rfl, hid, ?_⟩
    · cases wl <;> first | exact trivial | cases hown
    · show pipelineStep P.checks P.known s.pipeline (.writer wl) = _
      rw [pipelineStep, if_pos hwl]
      exact congrArg (Option.map fun w => { s.pipeline with writer := w }) hw
    · rw [show w.sent = s.client.writer.sent from (own_keeps hown hw).1]
      exact hhanded
  | @subscriber pl p hpl hp =>
    refine ⟨[pl], p, .single ⟨?_, hp⟩, ?_, hid, ?_⟩
    · cases pl with
      | arrive u => exact ht
      | writer => cases hpl
      | _ => trivial
    · exact (pipeline_withPipeline (subscriber_stopped hp hpl)).symm
    · intro r hr
      rw [show (s.withPipeline p).client.writer.sent = s.client.writer.sent from
        (subscriber_keeps hp hpl).1] at hr
      exact hhanded hr
  | subscriberEnds hs | subscriberCancelled hs =>
    exact ⟨[.stop], _, .single ⟨trivial, rfl⟩, rfl, hid, hhanded⟩
  | _ => exact ⟨[], _, .nil _, rfl, hid, hhanded⟩

/-- Seen from the pipeline, a run of the tool is a run of the pipeline, as long as there is no
failure to create the file. -/
theorem tool_pipeline (h : ((tool P).guard Typed).Reachable s) (hfile : s.csvFile ≠ .failed) :
    ((pipeline P.checks P.known).guard Inputs).Reachable s.pipeline ∧
      s.client.writer.sent ⊆ s.client.handed := by
  have hsim : LTS.Simulation ((tool P).guard Typed) ((pipeline P.checks P.known).guard Inputs)
      fun s p => s.csvFile ≠ .failed → Seen s p := by
    refine ⟨?_, ?_⟩
    · rintro s (rfl | ⟨-, rfl⟩)
      · exact ⟨.init, rfl, fun _ => ⟨rfl, Nat.two_pow_pos 64, fun r hr => hr⟩⟩
      · exact ⟨.init, rfl, fun _ => ⟨rfl, Nat.two_pow_pos 64, fun r hr => hr⟩⟩
    · intro s p l s' hseen ⟨ht, hs⟩
      by_cases hfile' : s'.csvFile = .failed
      · exact ⟨[], p, .nil _, fun hne => absurd hfile' hne⟩
      · have hbefore : s.csvFile ≠ .failed := by
          intro hf
          exact hfile' ((csvFile_step hs (by rw [hf]; exact CsvFile.noConfusion)).trans hf)
        obtain ⟨pls, p', hrun, hseen'⟩ := seen_step (hseen hbefore) ht hs hfile'
        exact ⟨pls, p', hrun, fun _ => hseen'⟩
  obtain ⟨p, hp, hseen⟩ := hsim.reachable s h
  obtain ⟨rfl, -, hhanded⟩ := hseen hfile
  exact ⟨hp, hhanded⟩

/-- A line is a record that was handed over, or a block record with the entry it was joined
with. -/
theorem row_cases (h : ((tool P).guard Typed).Reachable s) (hfile : s.csvFile ≠ .failed)
    {source : Source} {r : CSVRecord} (hr : (source, r) ∈ s.client.writer.rows) :
    r ∈ s.client.handed ∨ ∃ block pending, r = joinRow block pending ∧
      block ∈ s.client.writer.received ∧ ∀ p ∈ pending, p ∈ s.client.handed ∧
        p.transactionId.isSome = true ∧ block.transactionId = p.transactionId := by
  obtain ⟨hp, hhanded⟩ := tool_pipeline h hfile
  have hw : Writer.lts.Reachable s.client.writer := writer_reachable (LTS.guard_reachable hp)
  have hB := books_reachable hw
  have hS := streams_reachable hw
  have hinserted : ∀ p ∈ s.client.writer.inserted, p ∈ s.client.handed := fun p hp =>
    hhanded (hS.tracked.subset (List.mem_append_left _ hp))
  by_cases hsource : source = .block
  · subst hsource
    obtain ⟨⟨block, pending⟩, hj, rfl⟩ := hB.block_row r hr
    have hreceived : block ∈ s.client.writer.received := by
      apply hS.blocks.subset
      apply List.mem_append_left
      apply List.mem_append_left
      exact List.mem_map_of_mem hj
    refine .inr ⟨block, pending, rfl, hreceived, ?_⟩
    intro p hp
    obtain rfl : pending = some p := hp
    obtain ⟨hin, hsome, hid⟩ := hB.joined_own block p hj
    exact ⟨hinserted p hin, hsome, hid⟩
  · exact .inl (hinserted r (hB.other_row source r hr hsource))

end TpuTools.Client
