import TpuTools.Core.Interleave
import TpuTools.L3Writer.BlockRows
import TpuTools.L4Client.OwnJoin

/-!
# From the stream of updates to the file

The subscriber's loop, the emission tasks it spawns and the CSV writer, from end to end. The
tasks of different slots send at the same time, so the records of one slot come between those of
others, in the channel as in the file.

* `Emitted`: while the block task runs, the block channel took a merge of what the tasks have to
  send, and each task has the rest of its own left.
* `spawned_append`: which tasks further messages spawn.
* **`slot_rows_exact`**: the rows of a complete slot are the reference records of its
  transactions, each once and by increasing index.
-/
namespace TpuTools.Client
open Subscriber Writer

variable {checks : Bool} {known : KnownAccounts} {s s' : Pipeline} {l : PipelineLabel}

/-- What the tasks spawned by these messages have to send. -/
def emissions (checks : Bool) (known : KnownAccounts) (us : List Arrival) :
    List (List CSVRecord) :=
  (process us).spawned.map fun task => (emit checks known task).sent

/-! ## The block channel -/

/-- The block task runs, or it has found its channel closed. -/
def Undisturbed (w : CsvWriter) : Prop := w.blockDone = false ∨ w.block = .closed

theorem undisturbed_before {w w' : CsvWriter} {wl : Writer.Label} (h : step w wl = some w')
    (hu : Undisturbed w') : Undisturbed w := by
  cases step_move h with
  | blockTake hb | join hb | blockClosed hb => exact .inl (by simp [CsvWriter.blockDone, hb])
  | joinPoisoned | blockCancelled =>
    rcases hu with hu | hu
    · cases hu
    · cases hu
  | _ => exact hu

/-- Only its own label closes the block channel. -/
theorem step_blockOpen {w w' : CsvWriter} {wl : Writer.Label} (h : step w wl = some w')
    (hl : wl ≠ .dropBlock) : w'.blockOpen = w.blockOpen := by
  cases step_move h with
  | dropBlock => exact absurd rfl hl
  | _ => rfl

structure Emitted (checks : Bool) (known : KnownAccounts) (s : Pipeline) : Prop where
  loop : s.loop = process s.arrived
  merged : Undisturbed s.writer →
    Merged (emissions checks known s.arrived) s.tasks s.writer.received
  /-- the channel closes when the loop has ended and all tasks are done -/
  closed : s.writer.blockOpen = false → s.stopped = true ∧ ∀ task ∈ s.tasks, task = []

theorem emissions_append (us : List Arrival) (u : Arrival) :
    emissions checks known (us ++ [u]) = emissions checks known us ++
      (spawnedBy (process us) u).map fun task => (emit checks known task).sent := by
  unfold emissions
  rw [process_append, onMessage_spawned, List.map_append]

theorem emitted_arrive {u : Arrival} (h : pipelineStep checks known s (.arrive u) = some s')
    (hE : Emitted checks known s) : Emitted checks known s' := by
  simp only [pipelineStep] at h
  split at h
  · cases h
  · rename_i hrun
    cases h
    refine ⟨?_, ?_, ?_⟩
    · rw [process_append, hE.loop]
    · intro hu
      simp only
      rw [emissions_append, hE.loop]
      exact (hE.merged hu).spawn _
    · intro hc
      exact absurd (hE.closed hc).1 hrun

theorem emitted_emitNext {i : Nat} (h : pipelineStep checks known s (.emitNext i) = some s')
    (hw : Writer.lts.Reachable s.writer) (hE : Emitted checks known s) :
    Emitted checks known s' := by
  simp only [pipelineStep] at h
  split at h
  · rename_i r rest hi
    have hmem : r :: rest ∈ s.tasks := List.mem_of_getElem? hi
    -- a task with something left holds a sender
    have hopen : s.writer.blockOpen = true := by
      by_contra hc
      exact absurd ((hE.closed (Bool.eq_false_iff.2 hc)).2 _ hmem) (by simp)
    split at h
    · rename_i hdone
      cases h
      refine ⟨hE.loop, ?_, ?_⟩
      · intro hu
        exfalso
        rcases hu with hu | hu
        · cases hdone.symm.trans hu
        · cases hopen.symm.trans (drained_reachable hw hu).2
      · intro hc
        cases hopen.symm.trans hc
    · obtain ⟨w, hs, rfl⟩ := Option.map_eq_some_iff.1 h
      obtain ⟨-, rfl⟩ := of_guard hs
      refine ⟨hE.loop, ?_, ?_⟩
      · intro hu
        exact (hE.merged hu).take hi
      · intro hc
        cases hopen.symm.trans hc
  · cases h

theorem emitted_step (h : pipelineStep checks known s l = some s')
    (hw : Writer.lts.Reachable s.writer) (hE : Emitted checks known s) :
    Emitted checks known s' := by
  cases l with
  | arrive u => exact emitted_arrive h hE
  | emitNext i => exact emitted_emitNext h hw hE
  | stop =>
    cases h
    exact ⟨hE.loop, hE.merged, fun hc => ⟨rfl, (hE.closed hc).2⟩⟩
  | dropSenders =>
    simp only [pipelineStep] at h
    split at h
    · rename_i hend
      obtain ⟨w, hs, rfl⟩ := Option.map_eq_some_iff.1 h
      cases hs
      exact ⟨hE.loop, hE.merged, fun _ => hend⟩
    · cases h
  | writer wl =>
    simp only [pipelineStep] at h
    split at h
    · rename_i hwl
      obtain ⟨w, hs, rfl⟩ := Option.map_eq_some_iff.1 h
      have hrec : w.received = s.writer.received := by
        rw [(step_channels hs).2]
        cases wl <;> simp [isWriterLabel, Label.receives] at hwl ⊢
      have hopen : w.blockOpen = s.writer.blockOpen := by
        apply step_blockOpen hs
        intro hl
        subst hl
        cases hwl
      refine ⟨hE.loop, ?_, ?_⟩
      · intro hu
        simp only [hrec]
        exact hE.merged (undisturbed_before hs hu)
      · intro hc
        rw [hopen] at hc
        exact hE.closed hc
    · cases h

theorem emitted_reachable (h : (pipeline checks known).Reachable s) : Emitted checks known s := by
  refine LTS.InductiveOver.reachable (P := Emitted checks known)
    (Q := fun s => Writer.lts.Reachable s.writer) ⟨?_, ?_⟩ (fun _ => writer_reachable) s h
  · intro s hs
    rw [show s = .init from hs]
    exact ⟨rfl, fun _ => .nil, by simp [Pipeline.init, CsvWriter.init]⟩
  · intro s l s' hw hE hs
    exact emitted_step hs hw hE

/-! ## One slot -/

theorem recorder_slot {slot : Nat} {us : List Arrival} {r : SlotRecording}
    (h : recorder slot us = some r) : r.slot = slot := by
  induction us using List.reverseRecOn generalizing r with
  | nil => cases h
  | append_singleton us u ih =>
    rw [recorder_append] at h
    unfold recorderStep at h
    split at h
    · cases h
    · split at h
      · split at h
        · cases h
          rfl
        · cases h
      · rename_i r' hr
        cases h
        show r'.slot = slot
        exact ih hr

theorem txIn_slot {slot : Nat} {u : Arrival} {v : TxWithTimestamps} (h : txIn slot u = some v) :
    v.tx.slot = slot := by
  unfold txIn at h
  split at h
  · split at h
    · cases h
      assumption
    · cases h
  · cases h

/-- Further messages only add tasks, and for a slot only with its block meta. A task has
transactions of its own slot only. -/
theorem spawned_append (slot : Nat) (us vs : List Arrival) : ∃ new,
    (process (us ++ vs)).spawned = (process us).spawned ++ new ∧
    (∀ task ∈ new, ∀ v ∈ task.recording.txs, v.tx.slot = task.recording.slot) ∧
    ((∀ v ∈ vs, isBlockMeta slot v = false) → ∀ task ∈ new, task.recording.slot ≠ slot) := by
  induction vs using List.reverseRecOn with
  | nil => exact ⟨[], by simp⟩
  | append_singleton vs v ih =>
    obtain ⟨new, hnew, htxs, hslot⟩ := ih
    obtain ⟨now, msg⟩ := v
    have hspawned := process_spawned (us ++ vs) now msg
    rw [List.append_assoc] at hspawned
    have hkept : (∀ v ∈ vs ++ [(now, msg)], isBlockMeta slot v = false) →
        ∀ task ∈ new, task.recording.slot ≠ slot :=
      fun h => hslot fun v hv => h v (List.mem_append_left _ hv)
    split at hspawned
    · rename_i blockMeta hm
      cases hr : recorder blockMeta.slot (us ++ vs) with
      | none =>
        rw [hr, Option.map_none, Option.toList_none, List.append_nil, hnew] at hspawned
        exact ⟨new, hspawned, htxs, hkept⟩
      | some recording =>
        rw [hr, Option.map_some, Option.toList_some, hnew, List.append_assoc] at hspawned
        have hrslot := recorder_slot hr
        refine ⟨_, hspawned, ?_, ?_⟩
        · intro task ht w hw
          rcases List.mem_append.1 ht with ht | ht
          · exact htxs task ht w hw
          · rw [List.mem_singleton.1 ht] at hw ⊢
            obtain ⟨u, -, hu⟩ := mem_recorder_txs hr hw
            rw [txIn_slot hu, hrslot]
        · intro h task ht
          rcases List.mem_append.1 ht with ht | ht
          · exact hkept h task ht
          · rw [List.mem_singleton.1 ht]
            have hno := h (now, msg) (by simp)
            simp only [isBlockMeta, hm, decide_eq_false_iff_not] at hno
            rw [hrslot]
            exact hno
    · rw [List.append_nil, hnew] at hspawned
      exact ⟨new, hspawned, htxs, hkept⟩

/-- A record has the slot of its task. -/
theorem emit_slot {task : EmissionTask} {r : CSVRecord}
    (hown : ∀ v ∈ task.recording.txs, v.tx.slot = task.recording.slot)
    (hr : r ∈ (emit checks known task).sent) : r.receivedSlot = some task.recording.slot := by
  obtain ⟨v, hv, record, tick, hb, rfl⟩ := emit_builtFrom hr
  obtain ⟨info, statusMeta, signature, txType, -, -, -, -, rfl⟩ := tryBuild_spec hb
  simp only [complete, receivedRecord, hown v hv]

/-- Between the opening of a slot and its only block meta came `b`, with everything of the `n`
transactions in the slot. -/
structure Delivered (slot n : Nat) (b us : List Arrival) : Prop where
  complete : CompleteSlot slot b n
  closed : ∃ before opening now msg blockMeta after,
    us = before ++ opening :: b ++ (now, msg) :: after ∧ ¬ OpenAfter slot before ∧
    opens slot opening = true ∧ msg.updateOneof = some (.blockMeta blockMeta) ∧
    blockMeta.slot = slot ∧ blockMeta.executedTransactionCount = n ∧
    ∀ v ∈ before ++ after, isBlockMeta slot v = false

theorem not_isBlockMeta {slot : Nat} {u : Arrival} (h : closes slot u = false) :
    isBlockMeta slot u = false := by
  unfold closes at h
  exact (Bool.or_eq_false_iff.1 h).1

/-- One of the tasks is the slot's, and no other. -/
theorem Delivered.tasks {slot n : Nat} {b us : List Arrival} (h : Delivered slot n b us) :
    ∃ before after, (process us).spawned = before ++
        ⟨⟨slot, b.filterMap (txIn slot), b.filterMap (entryIn slot)⟩, n⟩ :: after ∧
      ∀ task ∈ before ++ after, task.recording.slot ≠ slot ∧
        ∀ v ∈ task.recording.txs, v.tx.slot = task.recording.slot := by
  obtain ⟨pre, o, now, msg, blockMeta, post, rfl, hpre, ho, hm, hs, hn, hno⟩ := h.closed
  obtain ⟨before, hbefore, htxs, hslot⟩ := spawned_append slot [] (pre ++ o :: b)
  obtain ⟨after, hafter, htxs', hslot'⟩ :=
    spawned_append slot (pre ++ o :: b ++ [(now, msg)]) post
  have hspawned := process_spawned (pre ++ o :: b) now msg
  simp only [hm, hs, hn, recorder_eq ho hpre h.complete.open_, Option.map_some,
    Option.toList_some] at hspawned
  have hquiet : ∀ v ∈ pre ++ o :: b, isBlockMeta slot v = false := by
    intro v hv
    rcases List.mem_append.1 hv with hv | hv
    · exact hno v (List.mem_append_left _ hv)
    · rcases List.mem_cons.1 hv with rfl | hv
      · exact not_isBlockMeta (not_closes_of_opens ho)
      · exact not_isBlockMeta (h.complete.open_ v hv)
  refine ⟨before, after, ?_, ?_⟩
  · rw [List.append_assoc (pre ++ o :: b), List.singleton_append] at hafter
    rw [hafter, hspawned]
    rw [List.nil_append] at hbefore
    rw [hbefore]
    simp [process, LoopState.init]
  · intro task ht
    rcases List.mem_append.1 ht with ht | ht
    · exact ⟨hslot hquiet task ht, htxs task ht⟩
    · exact ⟨hslot' (fun v hv => hno v (List.mem_append_right _ hv)) task ht, htxs' task ht⟩

/-! ## The rows -/

/-- Writing does not fail. -/
def Unfailing (s : Pipeline) : PipelineLabel → Prop
  | .writer wl => WritesOk s.writer wl
  | _ => True

instance (s : Pipeline) : (l : PipelineLabel) → Decidable (Unfailing s l)
  | .writer wl => inferInstanceAs (Decidable (WritesOk s.writer wl))
  | .arrive _ | .stop | .emitNext _ | .dropSenders => .isTrue trivial

theorem unfailing_writer (h : ((pipeline checks known).guard Unfailing).Reachable s) :
    (Writer.lts.guard WritesOk).Reachable s.writer := by
  refine LTS.Inductive.reachable
    (P := fun s : Pipeline => (Writer.lts.guard WritesOk).Reachable s.writer) ⟨?_, ?_⟩ s h
  · intro s hs
    rw [show s = .init from hs]
    exact .init rfl
  · rintro s l s' hr ⟨hok, hs⟩
    cases l with
    | writer wl =>
      simp only [pipeline, LTS.ofFn, pipelineStep] at hs
      split at hs
      · obtain ⟨w, hw, rfl⟩ := Option.map_eq_some_iff.1 hs
        exact hr.step ⟨hok, hw⟩
      · cases hs
    | emitNext i =>
      simp only [pipeline, LTS.ofFn, pipelineStep] at hs
      split at hs
      · split at hs
        · cases hs
          exact hr
        · obtain ⟨w, hw, rfl⟩ := Option.map_eq_some_iff.1 hs
          exact hr.step (l := .sendBlock _) ⟨trivial, hw⟩
      · cases hs
    | dropSenders =>
      simp only [pipeline, LTS.ofFn, pipelineStep] at hs
      split at hs
      · obtain ⟨w, hw, rfl⟩ := Option.map_eq_some_iff.1 hs
        exact hr.step (l := .dropBlock) ⟨trivial, hw⟩
      · cases hs
    | arrive u =>
      simp only [pipeline, LTS.ofFn, pipelineStep] at hs
      split at hs
      · cases hs
      · cases hs
        exact hr
    | stop =>
      cases hs
      exact hr

/-- The rows of the block task that are about a slot. -/
def slotRows (slot : Nat) (w : CsvWriter) : List CSVRecord :=
  (blockRows w).filter fun r => r.receivedSlot = some slot

/-- The row of `u`: its reference, with the send status of the record under its id if that is
still pending. -/
def RowOf (known : KnownAccounts) (entries : List EntryRecord) (n : Nat) (sent : List CSVRecord)
    (u : TxWithTimestamps) (row : CSVRecord) : Prop :=
  ∃ r pending, IsReference known entries n u r ∧ row = joinRow r pending ∧
    ∀ p ∈ pending, p ∈ sent ∧ p.transactionId = r.transactionId

theorem joinRow_receivedSlot (r : CSVRecord) (pending : Option CSVRecord) :
    (joinRow r pending).receivedSlot = r.receivedSlot := by
  cases pending <;> rfl

/-- What the block channel took of the slot. -/
theorem received_slot {slot n : Nat} {b : List Arrival}
    (hE : Emitted checks known s) (hw : Writer.lts.Reachable s.writer)
    (hclosed : s.writer.block = .closed) (hd : Delivered slot n b s.arrived) :
    s.writer.received.filter (fun r => r.receivedSlot = some slot) =
      (emit checks known
        ⟨⟨slot, b.filterMap (txIn slot), b.filterMap (entryIn slot)⟩, n⟩).sent := by
  obtain ⟨before, after, hspawned, hother⟩ := hd.tasks
  have hdone := (hE.closed (drained_reachable hw hclosed).2).2
  have hsources : emissions checks known s.arrived =
      before.map (fun task => (emit checks known task).sent) ++
        (emit checks known
          ⟨⟨slot, b.filterMap (txIn slot), b.filterMap (entryIn slot)⟩, n⟩).sent ::
        after.map fun task => (emit checks known task).sent := by
    unfold emissions
    rw [hspawned, List.map_append, List.map_cons]
  refine (hE.merged (.inr hclosed)).filter_eq hdone hsources ?_ ?_
  · intro r hr
    have hown : ∀ v ∈ b.filterMap (txIn slot), v.tx.slot = slot := by
      intro v hv
      obtain ⟨u, -, hu⟩ := List.mem_filterMap.1 hv
      exact txIn_slot hu
    rw [emit_slot hown hr, decide_eq_true_eq]
  · intro l hl r hr
    rw [← List.map_append] at hl
    obtain ⟨task, ht, rfl⟩ := List.mem_map.1 hl
    obtain ⟨hne, hown⟩ := hother task ht
    rw [emit_slot hown hr, decide_eq_false_iff_not, Option.some.injEq]
    exact hne

/-- **The rows of a slot.** In every run in which no write fails and the block channel is closed
before the block task is cancelled: when all tasks of the writer have ended, the file holds the
rows that were sent, in order, and those of a slot that was delivered completely are the
reference records of its transactions, each exactly once and by increasing index. -/
theorem slot_rows_exact (h : ((pipeline checks known).guard Unfailing).Reachable s)
    (hf : s.writer.finished = true) (hclosed : s.writer.block = .closed) {slot n : Nat}
    {b : List Arrival} (hd : Delivered slot n b s.arrived) :
    s.writer.file = CSVRecord.fieldNames :: s.writer.rows.map (·.2.asCsvRecord) ∧
    ∃ txs : List TxWithTimestamps, txs.Perm (b.filterMap (txIn slot)) ∧
      (txs.Pairwise fun u v => txIndex u < txIndex v) ∧
      List.Forall₂ (RowOf known (b.filterMap (entryIn slot)) n s.writer.sent) txs
        (slotRows slot s.writer) := by
  have hw := unfailing_writer h
  have hr := LTS.guard_reachable hw
  have hF := flowing_reachable hw
  have hB := books_reachable hr
  have hS := streams_reachable hr
  refine ⟨hF.file hf, sortByKey txIndex (b.filterMap (txIn slot)), sortByKey_perm txIndex _,
    sortByKey_lt hd.complete.indexes, ?_⟩
  obtain ⟨-, href⟩ := emit_complete checks known hd.complete
  have hreceived := received_slot (emitted_reachable (LTS.guard_reachable h)) hr hclosed hd
  rw [← joined_received hr hclosed, List.filter_map] at hreceived
  rw [← hreceived, List.forall₂_map_right_iff] at href
  have hrows : slotRows slot s.writer =
      (s.writer.joined.filter ((fun r => decide (r.receivedSlot = some slot)) ∘ (·.1))).map
        fun j => joinRow j.1 j.2 := by
    unfold slotRows
    rw [hF.handled, List.filter_map]
    simp only [Function.comp_def, joinRow_receivedSlot]
  rw [hrows, List.forall₂_map_right_iff]
  have hmem := (List.forall₂_and_left _ _).2 ⟨fun j hj => (List.mem_filter.1 hj).1, href.flip⟩
  refine List.Forall₂.flip (hmem.imp ?_)
  rintro ⟨r, pending⟩ u ⟨hj, hu⟩
  refine ⟨r, pending, hu, rfl, ?_⟩
  intro p hp
  rw [Option.mem_def] at hp
  subst hp
  obtain ⟨hin, -, hid⟩ := hB.joined_own r p hj
  exact ⟨hS.tracked.subset (List.mem_append_left _ hin), hid.symm⟩

/-! ## A run -/

/-- After the messages of slot 7: its transaction was sent by the tool, both channels are closed
and everything is written. -/
def writtenLabels : List PipelineLabel :=
  [.writer (.sendTracked (tracked 0 2 zeroSignature)), .writer .trackInsert, .stop, .emitNext 0,
    .dropSenders, .writer .blockTake, .writer .blockHandle, .writer .blockClosed,
    .writer .dropTracker, .writer .trackClosed, .writer .cancel, .writer .sweepCancelled,
    .writer .writerTake, .writer (.writeRow true), .writer (.flush true), .writer .writerClosed]

theorem writtenLabels_run : ∃ s, ((pipeline true noAccounts).guard Unfailing).Run afterMemoSlot
    writtenLabels s ∧ s.writer.finished = true ∧ s.writer.block = .closed ∧
    s.arrived = memoSlot ∧ s.writer.sent = [tracked 0 2 zeroSignature] :=
  ⟨_, LTS.guard_run_of_exec (· = Pipeline.init) _ Unfailing writtenLabels _ _ rfl, rfl, rfl, rfl,
    rfl⟩

theorem memoSlot_delivered : Delivered 7 1 ((memoSlot.take 3).drop 1) memoSlot where
  complete := {
    open_ := by decide
    entries := by decide
    counts := by decide
    fits := by decide
    txs := by
      intro u hu
      have hu' : u ∈ [(⟨⟨some ⟨List.replicate 64 0, false, none,
          some ⟨["Program log: Memo (len 5): \"0,1,2\""]⟩, 0⟩, 7⟩, some 2, none⟩ :
            TxWithTimestamps)] := hu
      rw [List.mem_singleton.1 hu']
      exact ⟨⟨_, rfl, rfl, rfl, by decide⟩, by decide⟩
    indexes := by decide }
  closed := ⟨[], (0, ⟨none, some (.slot ⟨7, 3⟩)⟩), 3, ⟨none, some (.blockMeta ⟨7, 1, 1⟩)⟩,
    ⟨7, 1, 1⟩, [], rfl, openAfter_nil 7, by decide, rfl, rfl, rfl, by decide⟩

/-- The transaction of slot 7 has its row. -/
theorem slot_rows_memoSlot : ∃ s, ((pipeline true noAccounts).guard Unfailing).Reachable s ∧
    s.writer.finished = true ∧ ∃ txs : List TxWithTimestamps, txs.length = 1 ∧
      List.Forall₂ (RowOf noAccounts [⟨0, 1⟩] 1 [tracked 0 2 zeroSignature]) txs
        (slotRows 7 s.writer) := by
  have hstart : ((pipeline true noAccounts).guard Unfailing).Reachable afterMemoSlot := by
    have hrun := LTS.guard_run (@arrivals_run true noAccounts memoSlot)
    rw [memoSlot_tasks] at hrun
    refine ⟨.init, _, rfl, hrun.guarded ?_⟩
    intro l hl t
    obtain ⟨u, -, rfl⟩ := List.mem_map.1 hl
    trivial
  obtain ⟨s, hrun, hf, hclosed, harrived, hsent⟩ := writtenLabels_run
  have hr := hstart.run hrun
  have hd : Delivered 7 1 ((memoSlot.take 3).drop 1) s.arrived := by
    rw [harrived]
    exact memoSlot_delivered
  obtain ⟨-, txs, hperm, -, hrows⟩ := slot_rows_exact hr hf hclosed hd
  rw [hsent] at hrows
  exact ⟨s, hr, hf, txs, hperm.length_eq, hrows⟩

end TpuTools.Client
