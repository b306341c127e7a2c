import TpuTools.L2Subscriber.Emission
import TpuTools.L3Writer.Ledger

/-!
# Subscriber and CSV writer together

The emission tasks of the subscriber send their records over the block channel into the CSV
writer, one record at a time and in any order among the tasks. The writer joins by the
transaction id, which for a block record is a number in its log text.

* `pipeline`: the subscriber's loop, its emission tasks and the writer.
* `received_fromArrived`: a block record has the id its transaction claims in its memo.
* `own_join`: a pending record is joined with its own transaction as long as no arriving
  transaction claims the id of a sent one without having its signature.
* `foreign_join`: otherwise the entry goes to a foreign transaction.
-/
namespace TpuTools.Client
open Subscriber Writer

structure Pipeline where
  loop : LoopState
  /-- what each emission task still has to send -/
  tasks : List (List CSVRecord)
  /-- the subscriber's loop has ended -/
  stopped : Bool
  writer : CsvWriter
  /-- ghost: the messages so far -/
  arrived : List Arrival

def Pipeline.init : Pipeline := ⟨.init, [], false, .init, []⟩

inductive PipelineLabel where
  | arrive (u : Arrival)
  /-- stream end, stream error or cancellation -/
  | stop
  /-- task `i` sends its next record -/
  | emitNext (i : Nat)
  /-- the last sender of the block channel is gone -/
  | dropSenders
  | writer (l : Writer.Label)

variable (checks : Bool) (known : KnownAccounts)

/-- The tasks a message spawns. -/
def spawnedBy (loop : LoopState) (u : Arrival) : List EmissionTask :=
  (onMessage loop u).spawned.drop loop.spawned.length

/-- The channel ends of the writer belong to the labels above. -/
def isWriterLabel : Writer.Label → Bool
  | .sendBlock _ | .dropBlock => false
  | _ => true

def pipelineStep (s : Pipeline) : PipelineLabel → Option Pipeline
  | .arrive u =>
    if s.stopped then none
    else
      some { s with
        loop := onMessage s.loop u
        tasks := s.tasks ++ (spawnedBy s.loop u).map fun task => (emit checks known task).sent
        arrived := s.arrived ++ [u] }
  | .stop => some { s with stopped := true }
  | .emitNext i =>
    match s.tasks[i]? with
    | some (r :: rest) =>
      -- on a closed channel `send` fails, which is only logged
      if s.writer.blockDone then some { s with tasks := s.tasks.set i rest }
      else (s.writer.sendBlock r).map fun w => { s with tasks := s.tasks.set i rest, writer := w }
    | _ => none
  | .dropSenders =>
    if s.stopped ∧ ∀ task ∈ s.tasks, task = [] then
      (step s.writer .dropBlock).map fun w => { s with writer := w }
    else none
  | .writer l =>
    if isWriterLabel l then (step s.writer l).map fun w => { s with writer := w } else none

def pipeline : LTS Pipeline PipelineLabel :=
  LTS.ofFn (· = .init) (pipelineStep checks known)

variable {checks known} {s s' : Pipeline} {l : PipelineLabel}

/-! ## Steps -/

/-- What a step does to the writer: nothing, or one step of its own. -/
theorem pipelineStep_writer (h : pipelineStep checks known s l = some s') :
    s'.writer = s.writer ∨ ∃ wl, step s.writer wl = some s'.writer := by
  cases l with
  | arrive u =>
    simp only [pipelineStep] at h
    split at h
    · cases h
    · cases h
      exact Or.inl rfl
  | stop =>
    simp only [pipelineStep, Option.some.injEq] at h
    subst h
    exact Or.inl rfl
  | emitNext i =>
    simp only [pipelineStep] at h
    split at h
    · rename_i r rest _
      split at h
      · cases h
        exact Or.inl rfl
      · obtain ⟨w, hw, rfl⟩ := Option.map_eq_some_iff.1 h
        exact Or.inr ⟨.sendBlock r, hw⟩
    · cases h
  | dropSenders =>
    simp only [pipelineStep] at h
    split at h
    · obtain ⟨w, hw, rfl⟩ := Option.map_eq_some_iff.1 h
      exact Or.inr ⟨.dropBlock, hw⟩
    · cases h
  | writer wl =>
    simp only [pipelineStep] at h
    split at h
    · obtain ⟨w, hw, rfl⟩ := Option.map_eq_some_iff.1 h
      exact Or.inr ⟨wl, hw⟩
    · cases h

/-- Seen from the writer, a run of the pipeline is a run of the writer. -/
theorem pipeline_projection :
    LTS.Projection (pipeline checks known) Writer.lts (·.writer) where
  init := by
    intro s hs
    rw [show s = .init from hs]
    rfl
  step := by
    intro s l s' h
    rcases pipelineStep_writer h with hw | ⟨wl, hw⟩
    · exact ⟨[], by rw [hw]; exact .nil _⟩
    · exact ⟨[wl], .single hw⟩

theorem writer_reachable (h : (pipeline checks known).Reachable s) :
    Writer.lts.Reachable s.writer :=
  pipeline_projection.reachable s h

/-! ## Where a block record comes from -/

/-- The transaction id and the signature of an arriving transaction with a memo. -/
def claimed (u : Arrival) : Option (Nat × String) :=
  match u.2.updateOneof with
  | some (.transaction tx) =>
    tx.transaction.bind fun info =>
      info.statusMeta.bind fun statusMeta =>
        (Signature.tryFrom info.signature).bind fun signature =>
          (memoOf statusMeta.logMessages).map fun memo => (memo.1, signature.toText)
  | _ => none

/-- A record whose id and signature are those of an arrived transaction. -/
def FromArrived (us : List Arrival) (r : CSVRecord) : Prop :=
  ∃ u ∈ us, claimed u = r.transactionId.map fun id => (id, r.signature)

theorem FromArrived.mono {us vs : List Arrival} {r : CSVRecord} (h : FromArrived us r)
    (hs : us ⊆ vs) : FromArrived vs r := by
  obtain ⟨u, hu, hc⟩ := h
  exact ⟨u, hs hu, hc⟩

theorem mem_recorder_txs {s : Nat} {v : TxWithTimestamps} : ∀ {us : List Arrival}
    {recording : SlotRecording}, recorder s us = some recording → v ∈ recording.txs →
      ∃ u ∈ us, txIn s u = some v := by
  intro us
  induction us using List.reverseRecOn with
  | nil => intro recording h; simp [recorder] at h
  | append_singleton us u ih =>
    intro recording h hv
    rw [recorder_append] at h
    unfold recorderStep at h
    split at h
    · cases h
    · split at h
      · split at h
        · cases h
          simp at hv
        · cases h
      · rename_i recording' hr
        cases h
        rcases List.mem_append.1 hv with hv | hv
        · obtain ⟨w, hw, hwv⟩ := ih hr hv
          exact ⟨w, List.mem_append_left _ hw, hwv⟩
        · exact ⟨u, by simp, by simpa using hv⟩

/-- Also before a panic, every record sent was built from a recorded transaction. -/
theorem emitTxs_builtFrom {ticks : List Nat} {count : Nat} {r : CSVRecord} :
    ∀ {us : List TxWithTimestamps}, r ∈ (emitTxs known ticks count us).sent →
      ∃ u ∈ us, BuiltFrom known count u r
  | [], h => by simp [emitTxs] at h
  | u :: us, h => by
    have key : r ∈ (emitTxs known ticks count us).sent →
        ∃ v ∈ u :: us, BuiltFrom known count v r := by
      intro hr
      obtain ⟨v, hv, hb⟩ := emitTxs_builtFrom hr
      exact ⟨v, List.mem_cons_of_mem _ hv, hb⟩
    rcases emitTxs_cons known ticks count u us with
      ⟨-, he⟩ | ⟨-, he⟩ | ⟨record, tick, hr, -, -, -, he⟩
    · rw [he] at h
      exact key h
    · rw [he] at h
      simp at h
    · rw [he] at h
      rcases List.mem_cons.1 h with rfl | h
      · exact ⟨u, List.mem_cons_self, record, tick, hr, rfl⟩
      · exact key h

theorem emit_builtFrom {task : EmissionTask} {r : CSVRecord}
    (h : r ∈ (emit checks known task).sent) :
    ∃ u ∈ task.recording.txs, BuiltFrom known task.executedTransactionCount u r := by
  unfold emit at h
  cases ht : task.recording.collectTicks checks with
  | none =>
    rw [ht] at h
    simp at h
  | some ticks =>
    rw [ht] at h
    obtain ⟨u, hu, hb⟩ := emitTxs_builtFrom h
    exact ⟨u, mem_sortByKey.1 hu, hb⟩

theorem claimed_of_builtFrom {count s : Nat} {u : Arrival} {v : TxWithTimestamps} {r : CSVRecord}
    (hu : txIn s u = some v) (hb : BuiltFrom known count v r) :
    claimed u = r.transactionId.map fun id => (id, r.signature) := by
  obtain ⟨record, tick, hr, rfl⟩ := hb
  obtain ⟨info, statusMeta, signature, txType, hi, hm, hs, -, rfl⟩ := tryBuild_spec hr
  unfold txIn at hu
  split at hu
  · rename_i tx htx
    split at hu
    · cases hu
      have hi : tx.transaction = some info := hi
      simp only [claimed, htx, hi, hm, hs, Option.bind_some, complete, receivedRecord,
        Option.map_map]
      rfl
    · cases hu
  · cases hu

theorem onMessage_spawned (us : List Arrival) (u : Arrival) :
    (onMessage (process us) u).spawned = (process us).spawned ++ spawnedBy (process us) u := by
  obtain ⟨now, msg⟩ := u
  have h := process_spawned us now msg
  rw [process_append] at h
  rw [spawnedBy, h, List.drop_left]

/-- A task spawned after the arrivals `us` sends records of these arrivals only. -/
theorem spawnedBy_fromArrived {us : List Arrival} {u : Arrival} {task : EmissionTask}
    (h : task ∈ spawnedBy (process us) u) {r : CSVRecord}
    (hr : r ∈ (emit checks known task).sent) : FromArrived us r := by
  obtain ⟨now, msg⟩ := u
  have hs := process_spawned us now msg
  rw [process_append, onMessage_spawned] at hs
  rw [List.append_cancel_left hs] at h
  split at h
  · rename_i blockMeta _
    simp only [Option.mem_toList, Option.map_eq_some_iff] at h
    obtain ⟨recording, hrec, rfl⟩ := h
    obtain ⟨v, hv, hb⟩ := emit_builtFrom hr
    obtain ⟨w, hw, hwv⟩ := mem_recorder_txs hrec hv
    exact ⟨w, hw, claimed_of_builtFrom hwv hb⟩
  · simp at h

structure Sources (s : Pipeline) : Prop where
  loop : s.loop = process s.arrived
  tasks : ∀ task ∈ s.tasks, ∀ r ∈ task, FromArrived s.arrived r
  received : ∀ r ∈ s.writer.received, FromArrived s.arrived r

theorem sources_step (h : pipelineStep checks known s l = some s') (hS : Sources s) :
    Sources s' := by
  cases l with
  | arrive u =>
    simp only [pipelineStep] at h
    split at h
    · cases h
    · cases h
      refine ⟨?_, ?_, ?_⟩
      · simp only [process_append, hS.loop]
      · intro task ht r hr
        have hsub : s.arrived ⊆ s.arrived ++ [u] := List.subset_append_left _ _
        rcases List.mem_append.1 ht with ht | ht
        · exact (hS.tasks task ht r hr).mono hsub
        · obtain ⟨t, htm, rfl⟩ := List.mem_map.1 ht
          rw [hS.loop] at htm
          exact (spawnedBy_fromArrived htm hr).mono hsub
      · intro r hr
        exact (hS.received r hr).mono (List.subset_append_left _ _)
  | stop =>
    simp only [pipelineStep, Option.some.injEq] at h
    subst h
    exact ⟨hS.loop, hS.tasks, hS.received⟩
  | emitNext i =>
    simp only [pipelineStep] at h
    split at h
    · rename_i r rest hi
      have hmem : r :: rest ∈ s.tasks := List.mem_of_getElem? hi
      have htasks : ∀ task ∈ s.tasks.set i rest, ∀ q ∈ task, FromArrived s.arrived q := by
        intro task ht q hq
        rcases List.mem_or_eq_of_mem_set ht with ht | rfl
        · exact hS.tasks task ht q hq
        · exact hS.tasks _ hmem q (List.mem_cons_of_mem _ hq)
      split at h
      · cases h
        exact ⟨hS.loop, htasks, hS.received⟩
      · obtain ⟨w, hw, rfl⟩ := Option.map_eq_some_iff.1 h
        obtain ⟨-, rfl⟩ := of_guard hw
        refine ⟨hS.loop, htasks, ?_⟩
        intro q hq
        rcases List.mem_append.1 hq with hq | hq
        · exact hS.received q hq
        · rw [List.mem_singleton.1 hq]
          exact hS.tasks _ hmem r List.mem_cons_self
    · cases h
  | dropSenders =>
    simp only [pipelineStep] at h
    split at h
    · obtain ⟨w, hw, rfl⟩ := Option.map_eq_some_iff.1 h
      simp only [step, Option.some.injEq] at hw
      subst hw
      exact ⟨hS.loop, hS.tasks, hS.received⟩
    · cases h
  | writer wl =>
    simp only [pipelineStep] at h
    split at h
    · rename_i hwl
      obtain ⟨w, hw, rfl⟩ := Option.map_eq_some_iff.1 h
      have hrec : w.received = s.writer.received := by
        rw [(step_channels hw).2]
        cases wl <;> simp [isWriterLabel, Label.receives] at hwl ⊢
      exact ⟨hS.loop, hS.tasks, by simp only [hrec]; exact hS.received⟩
    · cases h

/-- In every reachable state the records on the way to the writer are those of arrived
transactions. -/
theorem sources_reachable (h : (pipeline checks known).Reachable s) : Sources s := by
  refine LTS.Inductive.reachable (P := Sources) ⟨?_, ?_⟩ s h
  · intro s hs
    rw [show s = .init from hs]
    exact ⟨rfl, by simp [Pipeline.init], by simp [Pipeline.init, CsvWriter.init]⟩
  · intro s l s' hS hs
    exact sources_step hs hS

/-! ## Joins -/

/-- No arriving transaction claims the id of a sent record without having its signature,
whichever of the two comes first. -/
def Unambiguous (s : Pipeline) : PipelineLabel → Prop
  | .arrive u => ∀ c ∈ claimed u, ∀ p ∈ s.writer.sent, p.transactionId = some c.1 →
      p.signature = c.2
  | .writer (.sendTracked p) => ∀ u ∈ s.arrived, ∀ c ∈ claimed u, p.transactionId = some c.1 →
      p.signature = c.2
  | _ => True

/-- All claims so far are those of the sent transactions themselves. -/
def Agree (s : Pipeline) : Prop :=
  ∀ u ∈ s.arrived, ∀ c ∈ claimed u, ∀ p ∈ s.writer.sent, p.transactionId = some c.1 →
    p.signature = c.2

theorem agree_step (h : pipelineStep checks known s l = some s') (ho : Unambiguous s l)
    (hA : Agree s) : Agree s' := by
  cases l with
  | arrive u =>
    simp only [pipelineStep] at h
    split at h
    · cases h
    · cases h
      intro v hv
      rcases List.mem_append.1 hv with hv | hv
      · exact hA v hv
      · rw [List.mem_singleton.1 hv]
        exact ho
  | stop =>
    simp only [pipelineStep, Option.some.injEq] at h
    subst h
    exact hA
  | emitNext i =>
    simp only [pipelineStep] at h
    split at h
    · split at h
      · cases h
        exact hA
      · obtain ⟨w, hw, rfl⟩ := Option.map_eq_some_iff.1 h
        obtain ⟨-, rfl⟩ := of_guard hw
        exact hA
    · cases h
  | dropSenders =>
    simp only [pipelineStep] at h
    split at h
    · obtain ⟨w, hw, rfl⟩ := Option.map_eq_some_iff.1 h
      simp only [step, Option.some.injEq] at hw
      subst hw
      exact hA
    · cases h
  | writer wl =>
    simp only [pipelineStep] at h
    split at h
    · obtain ⟨w, hw, rfl⟩ := Option.map_eq_some_iff.1 h
      intro u hu c hc p hp
      have hp : p ∈ w.sent := hp
      rw [(step_channels hw).1] at hp
      rcases List.mem_append.1 hp with hp | hp
      · exact hA u hu c hc p hp
      · cases wl with
        | sendTracked record =>
          rw [List.mem_singleton.1 hp]
          exact ho u hu c hc
        | _ => simp [Label.sends] at hp
    · cases h

/-- **Own joins.** In every run in which no transaction claims the id of a sent one without
having its signature, a pending record is joined with its own transaction only. -/
theorem own_join (h : ((pipeline checks known).guard Unambiguous).Reachable s) {r p : CSVRecord}
    (hj : (r, some p) ∈ s.writer.joined) : r.signature = p.signature := by
  have hr := LTS.guard_reachable h
  have hA : Agree s := by
    refine LTS.Inductive.reachable (P := Agree) ⟨?_, ?_⟩ s h
    · intro s hs
      rw [show s = .init from hs]
      intro u hu
      simp [Pipeline.init] at hu
    · intro s l s' hA hs
      exact agree_step hs.2 hs.1 hA
  have hw := writer_reachable hr
  have hS := streams_reachable hw
  obtain ⟨hp, hsome, hid⟩ := (books_reachable hw).joined_own r p hj
  -- `r` carries the claim of an arrived transaction, and it claims the id of `p`
  have hrec : r ∈ s.writer.received := by
    refine hS.blocks.subset (List.mem_append_left _ (List.mem_append_left _ ?_))
    exact List.mem_map.2 ⟨_, hj, rfl⟩
  obtain ⟨u, hu, hc⟩ := (sources_reachable hr).received r hrec
  obtain ⟨i, hi⟩ := Option.isSome_iff_exists.1 hsome
  rw [hid, hi] at hc
  exact (hA u hu _ hc p (hS.tracked.subset (List.mem_append_left _ hp)) hi).symm

/-! ## Runs -/

/-- Arrivals alone: nothing is sent yet, so nothing can be ambiguous. -/
theorem arrivals_run (us : List Arrival) :
    ((pipeline checks known).guard Unambiguous).Run .init (us.map .arrive)
      { Pipeline.init with
        loop := process us
        tasks := (process us).spawned.map fun task => (emit checks known task).sent
        arrived := us } := by
  induction us using List.reverseRecOn with
  | nil => exact .nil _
  | append_singleton us u ih =>
    rw [List.map_append]
    refine ih.append (.single ⟨?_, ?_⟩)
    · intro c _ p hp
      simp [Pipeline.init, CsvWriter.init] at hp
    · simp [pipelineStep, pipeline, LTS.ofFn, Pipeline.init, process_append, onMessage_spawned]

/-- Slot 7 with one transaction: no account keys, an all-zero signature, and a memo line that
names the transaction id 0. -/
def memoSlot : List Arrival :=
  [(0, ⟨none, some (.slot ⟨7, 3⟩)⟩), (1, ⟨none, some (.entry ⟨7, 0, 1⟩)⟩),
    (2, ⟨none, some (.transaction ⟨some ⟨List.replicate 64 0, false, none,
      some ⟨["Program log: Memo (len 5): \"0,1,2\""]⟩, 0⟩, 7⟩)⟩),
    (3, ⟨none, some (.blockMeta ⟨7, 1, 1⟩)⟩)]

/-- The base58 text of 64 zero bytes. -/
def zeroSignature : String := "1111111111111111111111111111111111111111111111111111111111111111"

/-- The record of its transaction. -/
def memoRecord : CSVRecord :=
  ⟨zeroSignature, some 0, some 1, some 7, some 2, some 2, none, some 0, [], some 0,
    some "UnclassifiedNonVote", some 1⟩

def noAccounts : KnownAccounts := ⟨[], [], []⟩

theorem memoSlot_tasks :
    (process memoSlot).spawned.map (fun task => (emit true noAccounts task).sent) =
      [[memoRecord]] := by
  have hsplit : memoSlot = memoSlot.take 3 ++ [(3, ⟨none, some (.blockMeta ⟨7, 1, 1⟩)⟩)] := rfl
  have hnone : (process (memoSlot.take 3)).spawned = [] := by
    have h3 : memoSlot.take 3 = (([] ++ memoSlot.take 1) ++ (memoSlot.take 2).drop 1) ++
      (memoSlot.take 3).drop 2 := rfl
    rw [h3]
    simp only [memoSlot, List.take_succ_cons, List.take_zero, List.drop_succ_cons, List.drop_zero,
      process_spawned, List.append_nil]
    rfl
  have hrec : recorder 7 (memoSlot.take 3) = some ⟨7, [⟨⟨some ⟨List.replicate 64 0, false, none,
      some ⟨["Program log: Memo (len 5): \"0,1,2\""]⟩, 0⟩, 7⟩, some 2, none⟩], [⟨0, 1⟩]⟩ := rfl
  rw [hsplit, process_spawned, hnone]
  simp only [hrec, Option.map_some, Option.toList_some, List.nil_append, List.map_cons,
    List.map_nil]
  decide +kernel

theorem claimed_memoSlot : ∀ u ∈ memoSlot, ∀ c ∈ claimed u, c = (0, zeroSignature) := by
  decide +kernel

def afterMemoSlot : Pipeline :=
  { Pipeline.init with loop := process memoSlot, tasks := [[memoRecord]], arrived := memoSlot }

theorem afterMemoSlot_reachable :
    ((pipeline true noAccounts).guard Unambiguous).Reachable afterMemoSlot := by
  have hrun := @arrivals_run true noAccounts memoSlot
  rw [memoSlot_tasks] at hrun
  exact ⟨.init, _, rfl, hrun⟩

/-- The record of transaction 0 is inserted, then the block record of slot 7 is handled. -/
def joinLabels : List PipelineLabel :=
  [.writer .trackInsert, .emitNext 0, .writer .blockTake, .writer .blockHandle]

/-- The handling takes the entry out of the map, whatever its signature. -/
theorem joinLabels_run (signature : String) : ∃ s₁ s,
    pipelineStep true noAccounts afterMemoSlot
      (.writer (.sendTracked (tracked 0 2 signature))) = some s₁ ∧
    (pipeline true noAccounts).Run s₁ joinLabels s ∧
    s.writer.joined = [(memoRecord, some (tracked 0 2 signature))] :=
  ⟨_, _, rfl, LTS.run_of_exec (· = Pipeline.init) _ _ _ _ rfl, rfl⟩

/-- The transaction of slot 7 joins the pending record with its signature. -/
theorem own_join_memoSlot : ∃ s, ((pipeline true noAccounts).guard Unambiguous).Reachable s ∧
    (memoRecord, some (tracked 0 2 zeroSignature)) ∈ s.writer.joined ∧
    memoRecord.signature = (tracked 0 2 zeroSignature).signature := by
  obtain ⟨s₁, s, h1, h2, h3⟩ := joinLabels_run zeroSignature
  have hok : Unambiguous afterMemoSlot (.writer (.sendTracked (tracked 0 2 zeroSignature))) := by
    intro u hu c hc _
    rw [claimed_memoSlot u hu c hc]
    rfl
  have hrest : ∀ l ∈ joinLabels, ∀ t : Pipeline, Unambiguous t l := by
    intro l hl t
    simp only [joinLabels, List.mem_cons, List.not_mem_nil, or_false] at hl
    rcases hl with rfl | rfl | rfl | rfl <;> trivial
  have hs : ((pipeline true noAccounts).guard Unambiguous).Reachable s :=
    (afterMemoSlot_reachable.step ⟨hok, h1⟩).run (h2.guarded hrest)
  have hj : (memoRecord, some (tracked 0 2 zeroSignature)) ∈ s.writer.joined := by
    rw [h3]
    exact List.mem_cons_self
  exact ⟨s, hs, hj, own_join hs hj⟩

/-- The same transaction also takes the entry of a sent one that is not it. -/
theorem foreign_join : ∃ s, (pipeline true noAccounts).Reachable s ∧
    ∃ r p, (r, some p) ∈ s.writer.joined ∧ r.signature ≠ p.signature := by
  obtain ⟨s₁, s, h1, h2, h3⟩ := joinLabels_run "a"
  have hs : (pipeline true noAccounts).Reachable s :=
    ((LTS.guard_reachable afterMemoSlot_reachable).step h1).run h2
  refine ⟨s, hs, memoRecord, tracked 0 2 "a", ?_, by decide⟩
  rw [h3]
  exact List.mem_cons_self

end TpuTools.Client
