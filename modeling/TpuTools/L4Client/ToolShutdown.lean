import TpuTools.Core.Interleave
import TpuTools.Core.Ranking
import TpuTools.L2Blockhash.Ending
import TpuTools.L3Writer.Drain
import TpuTools.L4Client.ToolResult

/-!
# How `run_client` ends (`rate-latency-tool/src/run_client.rs`)

Once the parent token is cancelled the tasks notice it one by one, and `run_client` returns. What
the tasks do by then is finite as long as nothing new comes: no message, no leader slot and no
tick of the sweep, and the blockhash updater, which has no token, ends at its next look at the
channel once the scheduler has dropped its receiver.

* `Tool.closing`: the steps the tasks take by themselves, and the answers they wait for.
* `closing_ranking`: each of them lowers the work that is left, and until `run_client` has ended
  there is one.
* **`shutdown_ends`**: so a cancelled `run_client` ends, whatever order the tasks run in.
-/
namespace TpuTools.Client
open Subscriber Writer

variable {P : ToolParams} {s s' : Tool} {l : ToolLabel}

/-- The rest of the two seconds passes. -/
def Tool.delayPasses (s : Tool) (elapsed : Nat) : Bool :=
  match s.timeout with
  | .draining since =>
    decide (s.updater.now < since + YELLOWSTONE_STREAM_SHUTDOWN_DELAY) &&
      decide (since + YELLOWSTONE_STREAM_SHUTDOWN_DELAY ≤ s.updater.now + elapsed)
  | _ => false

/-- The steps of the tasks that bring nothing new. -/
def Tool.closing (s : Tool) : ToolLabel → Bool
  | .tick _ _ _ | .signal => false
  | .writer wl => wl.drains
  | .subscriber pl =>
    match pl with
    | .emitNext _ => true
    | .dropSenders => s.client.writer.blockOpen
    | _ => false
  | .updater ul =>
    match ul with
    | .advance elapsed => s.delayPasses elapsed
    -- before, it goes on
    | _ => !s.updater.channel.receivers
  | _ => true

/-! ## The work that is left -/

def MainPhase.work : MainPhase → Nat
  | .fetchingBlockhash => 20
  | .creatingLeaderUpdater => 10
  | .joining => 1
  | .returned _ | .panicked => 0

def SchedulerPhase.work : SchedulerPhase → Nat
  | .starting => 2
  | .running => 1
  | .notSpawned | .ended _ => 0

def TimeoutPhase.work (now : Nat) : TimeoutPhase → Nat
  | .sleeping => 3
  | .draining since => if now < since + YELLOWSTONE_STREAM_SHUTDOWN_DELAY then 2 else 1
  | .absent | .fired _ _ | .noticed => 0

def CsvFile.work : CsvFile → Nat
  | .creating => 1
  | .created | .failed => 0

def endingWork : Option Ending → Nat
  | none => 1
  | some _ => 0

def Tool.work (s : Tool) : Nat :=
  s.main.work + s.unjoined.length + s.scheduler.work + s.statsRunning.toNat +
    endingWork s.subscriberEnding + s.timeout.work s.updater.now + s.updater.phase.work +
    6 * s.tasks.flatten.length + s.client.writer.blockOpen.toNat + s.client.writer.work +
    s.csvFile.work

/-- The subscriber's part of it. -/
def Pipeline.work (p : Pipeline) : Nat :=
  6 * p.tasks.flatten.length + p.writer.blockOpen.toNat + p.writer.work

/-- A writer without a file leaves the rows to nobody. -/
theorem uncreated_work_le (w : CsvWriter) : (uncreated w).work ≤ w.work := by
  show 5 * 0 + 0 + 0 + 0 + 3 * w.writerChan.length + 0 ≤ w.work
  unfold CsvWriter.work
  omega

theorem work_sendBlock {w w' : CsvWriter} {r : CSVRecord} (h : w.sendBlock r = some w') :
    w'.work = w.work + 5 ∧ w'.blockOpen = w.blockOpen := by
  obtain ⟨-, rfl⟩ := of_guard h
  refine ⟨?_, rfl⟩
  show 5 * (w.blockChan ++ [r]).length + w.block.work + w.sweepWork + w.trackWork +
    3 * w.writerChan.length + w.writer.work = w.work + 5
  unfold CsvWriter.work
  rw [List.length_append, List.length_singleton]
  omega

theorem subscriber_lowers {pl : PipelineLabel} {p p' : Pipeline}
    (h : pipelineStep P.checks P.known p pl = some p')
    (hpl : (∃ i, pl = .emitNext i) ∨ (pl = .dropSenders ∧ p.writer.blockOpen = true)) :
    p'.work < p.work := by
  rcases hpl with ⟨i, rfl⟩ | ⟨rfl, hopen⟩
  · simp only [pipelineStep] at h
    split at h
    · rename_i r rest hi
      have hlen := (flatten_set_perm hi).length_eq
      rw [List.length_cons] at hlen
      split at h
      · cases h
        unfold Pipeline.work
        simp only
        omega
      · obtain ⟨w, hw, rfl⟩ := Option.map_eq_some_iff.1 h
        obtain ⟨hwork, hopen⟩ := work_sendBlock hw
        unfold Pipeline.work
        simp only [hwork, hopen]
        omega
    · cases h
  · simp only [pipelineStep] at h
    split at h
    · obtain ⟨w, hw, rfl⟩ := Option.map_eq_some_iff.1 h
      cases hw
      show 6 * p.tasks.flatten.length + 0 + p.writer.work < p.work
      unfold Pipeline.work
      rw [hopen, Bool.toNat_true]
      omega
    · cases h

theorem erase_length {task : TaskName} (ht : task ∈ s.unjoined) :
    (s.unjoined.erase task).length + 1 = s.unjoined.length := by
  have hpos := List.length_pos_of_mem ht
  rw [List.length_erase_of_mem ht]
  omega

theorem statsRunning_of_statsEnds (h : toolStep P s .statsEnds = some s') :
    s.statsRunning = true := by
  simp only [toolStep, stepOpen] at h
  split at h
  · cases h
  · obtain ⟨⟨hrun, -⟩, -⟩ := Option.ite_none_right_eq_some.1 h
    exact hrun

theorem delay_lowers {elapsed : Nat} (h : s.delayPasses elapsed = true) :
    s.timeout.work (s.updater.now + elapsed) < s.timeout.work s.updater.now := by
  unfold Tool.delayPasses at h
  split at h
  · rename_i since ht
    simp only [Bool.and_eq_true, decide_eq_true_eq] at h
    simp only [ht, TimeoutPhase.work]
    rw [if_pos h.1, if_neg (Nat.not_lt.2 h.2)]
    decide
  · cases h

/-- Each closing step lowers the work that is left. -/
theorem closing_lowers (h : toolStep P s l = some s') (hl : s.closing l = true) :
    s'.work < s.work := by
  cases (tool_move h).2 with
  | fetched hm | spawned hm =>
    simp only [Tool.work, hm, MainPhase.work, SchedulerPhase.work, Blockhash.Phase.work,
      Blockhash.BlockhashUpdater.new, List.length_append, List.length_cons, List.length_nil,
      Bool.toNat_true]
    omega
  | notFetched hm | noLeaderUpdater hm | finish hm =>
    simp only [Tool.work, hm, MainPhase.work]
    omega
  | endpoint hs =>
    simp only [Tool.work, hs, SchedulerPhase.work]
    omega
  | noEndpoint hs | schedulerEnds hs =>
    show s.main.work + s.unjoined.length + 0 + s.statsRunning.toNat +
      endingWork s.subscriberEnding + s.timeout.work s.updater.now + s.updater.phase.work +
        6 * s.tasks.flatten.length + s.client.writer.blockOpen.toNat + s.client.writer.work +
          s.csvFile.work < s.work
    simp only [Tool.work, hs, SchedulerPhase.work]
    omega
  | tickEnds | tick | signal => cases hl
  | fileCreated hf =>
    simp only [Tool.work, hf, CsvFile.work]
    omega
  | fileFailed hf =>
    have hle := uncreated_work_le s.client.writer
    have hopen : (uncreated s.client.writer).blockOpen = s.client.writer.blockOpen := rfl
    simp only [Tool.work, hf, CsvFile.work, hopen]
    omega
  | writer _ _ _ hw =>
    have hlt := work_lowers hw hl
    have hopen := drains_blockOpen hw hl
    simp only [Tool.work, hopen]
    omega
  | @subscriber pl p hpl hp =>
    have hlt := subscriber_lowers hp (by
      cases pl with
      | emitNext i => exact .inl ⟨i, rfl⟩
      | dropSenders => exact .inr ⟨rfl, hl⟩
      | arrive | stop | writer => cases hl)
    simp only [Pipeline.work, Tool.pipeline] at hlt
    simp only [Tool.work, Tool.withPipeline]
    omega
  | subscriberEnds hs | subscriberCancelled hs =>
    simp only [Tool.work, hs, endingWork]
    omega
  | advance =>
    have hlt := delay_lowers hl
    simp only [Tool.work]
    omega
  | @updater bl u _ hd hu hnow =>
    by_cases ha : ∃ elapsed, bl = .advance elapsed
    · obtain ⟨elapsed, rfl⟩ := ha
      cases hu
      have hlt := delay_lowers hl
      simp only [Tool.work]
      omega
    · have hr : s.updater.channel.receivers = false := by
        cases bl with
        | advance elapsed => exact absurd ⟨elapsed, rfl⟩ ha
        | _ => simpa [Tool.closing] using hl
      have hown : bl.own = true := by
        cases bl with
        | advance elapsed => exact absurd ⟨elapsed, rfl⟩ ha
        | dropReceivers => exact absurd rfl hd
        | _ => rfl
      have hlt := Blockhash.own_lowers hu hown hr
      simp only [Tool.work, hnow]
      omega
  | stopSending ht =>
    simp only [Tool.work, ht, TimeoutPhase.work]
    split <;> omega
  | stopAll ht =>
    show s.main.work + s.unjoined.length + s.scheduler.work + s.statsRunning.toNat +
      endingWork s.subscriberEnding + 0 + s.updater.phase.work +
        6 * s.tasks.flatten.length + s.client.writer.blockOpen.toNat + s.client.writer.work +
          s.csvFile.work < s.work
    simp only [Tool.work, ht, TimeoutPhase.work]
    omega
  | delayElapsed ht =>
    show s.main.work + s.unjoined.length + s.scheduler.work + s.statsRunning.toNat +
      endingWork s.subscriberEnding + 0 + s.updater.phase.work +
        6 * s.tasks.flatten.length + s.client.writer.blockOpen.toNat + s.client.writer.work +
          s.csvFile.work < s.work
    simp only [Tool.work, ht, TimeoutPhase.work]
    split <;> omega
  | timeoutCancelled ht =>
    simp only [Tool.work, ht, TimeoutPhase.work]
    omega
  | statsEnds =>
    simp only [Tool.work, statsRunning_of_statsEnds h, Bool.toNat_true, Bool.toNat_false]
    omega
  | @join task _ ht | @joinFailed task _ _ _ ht =>
    have hlen := erase_length ht
    show s.main.work + (s.unjoined.erase task).length + s.scheduler.work + s.statsRunning.toNat +
      endingWork s.subscriberEnding + s.timeout.work s.updater.now + s.updater.phase.work +
        6 * s.tasks.flatten.length + s.client.writer.blockOpen.toNat + s.client.writer.work +
          s.csvFile.work < s.work
    unfold Tool.work
    omega

/-! ## There is more to do -/

/-- Some closing step is possible. -/
def GoesOn (P : ToolParams) (s : Tool) : Prop :=
  ∃ l s', s.closing l = true ∧ toolStep P s l = some s'

theorem goesOn (hopen : s.main.over = false) (l : ToolLabel) (hl : s.closing l = true)
    (h : (stepOpen P s l).isSome = true) : GoesOn P s := by
  obtain ⟨s', hs⟩ := Option.isSome_iff_exists.1 h
  refine ⟨l, s', hl, ?_⟩
  unfold toolStep
  rw [if_neg (by rw [hopen]; exact Bool.false_ne_true)]
  exact hs

/-- The scheduler ends: nobody sends any more. -/
theorem scheduler_goesOn (hW : Wired P s) (hm : s.main = .joining) (hc : s.cancelled = true)
    (ha : s.scheduler.alive = true) : GoesOn P s := by
  have hopen : s.main.over = false := by rw [hm]; rfl
  cases hs : s.scheduler with
  | notSpawned => exact absurd hs (hW.spawned hm)
  | starting => exact goesOn hopen (.endpoint false) rfl (by simp [stepOpen, hs])
  | running => exact goesOn hopen .schedulerEnds rfl (by simp [stepOpen, hs, hW.child hc])
  | ended e =>
    rw [hs] at ha
    cases ha

/-- Without receivers the updater goes on until it returns. -/
theorem updater_goesOn (hm : s.main = .joining) (hr : s.updater.channel.receivers = false)
    (he : s.ending .blockhashUpdater = none) : GoesOn P s := by
  have hopen : s.main.over = false := by rw [hm]; rfl
  have hne : ∀ result, s.updater.phase ≠ .returned result := by
    intro result hp
    cases result <;> simp [Tool.ending, hp] at he
  obtain ⟨bl, u, hown, hu⟩ := @Blockhash.own_enabled P.updater _ hr hne
  refine goesOn hopen (.updater bl) ?_ ?_
  · cases bl with
    | advance | dropReceivers => cases hown
    | _ => simp [Tool.closing, hr]
  · cases bl with
    | advance | dropReceivers => cases hown
    | _ => simp [stepOpen, hm, hu]

/-- The timeout notices the cancellation, or it sleeps for the rest of its two seconds. -/
theorem timeout_goesOn (hopen : s.main.over = false) (hc : s.cancelled = true)
    (hne : s.timeout ≠ .absent) (he : s.ending .timeout = none) : GoesOn P s := by
  cases ht : s.timeout with
  | absent => exact absurd ht hne
  | sleeping => exact goesOn hopen .timeoutCancelled rfl (by simp [stepOpen, ht, hc])
  | draining since =>
    by_cases hnow : s.updater.now < since + YELLOWSTONE_STREAM_SHUTDOWN_DELAY
    · refine goesOn hopen
        (.updater (.advance (since + YELLOWSTONE_STREAM_SHUTDOWN_DELAY - s.updater.now))) ?_ rfl
      simp only [Tool.closing, Tool.delayPasses, ht, hnow, decide_true, Bool.true_and,
        decide_eq_true_eq]
      omega
    · exact goesOn hopen .delayElapsed rfl (by simp [stepOpen, ht, hnow])
  | fired since now | noticed => simp [Tool.ending, ht] at he

theorem writer_goesOn (hopen : s.main.over = false) (ho : P.output = true)
    (hc : s.cancelled = true) (he : s.ending .csvWriter = none) : GoesOn P s := by
  cases hfile : s.csvFile with
  | creating => exact goesOn hopen (.createFile true) rfl (by simp [stepOpen, ho, hfile])
  | failed => simp [Tool.ending, hfile] at he
  | created =>
    have hf : s.client.writer.finished = false := by simpa [Tool.ending, hfile] using he
    obtain ⟨wl, w, hdrains, hw⟩ := draining_progress hc hf
    refine goesOn hopen (.writer wl) hdrains ?_
    have hown : isOwnLabel wl = true ∧ isWriterLabel wl = true := by
      cases wl <;> first | exact ⟨rfl, rfl⟩ | cases hdrains
    simp [stepOpen, ho, hfile, hown, hw]

/-- What the tasks of a run without an output file or a duration are not. -/
theorem mem_spawned {task : TaskName} (h : task ∈ P.spawned) :
    (task = .csvWriter ∨ task = .subscriber → P.output = true) ∧
      (task = .timeout → P.duration ≠ none) := by
  unfold ToolParams.spawned ToolParams.early at h
  constructor
  · intro ht
    by_contra ho
    rw [if_neg ho] at h
    rcases ht with rfl | rfl <;> split at h <;> simp at h
  · rintro rfl hd
    rw [hd] at h
    split at h <;> simp at h

/-- A task that is not joined yet can be joined, or something else goes on. -/
theorem unjoined_goesOn (hW : Wired P s) (hJ : Joins P s) (hm : s.main = .joining)
    (hc : s.cancelled = true) {task : TaskName} (ht : task ∈ s.unjoined) : GoesOn P s := by
  have hopen : s.main.over = false := by rw [hm]; rfl
  have hmem : task ∈ P.spawned := by
    have hacc := hJ.accounted
    unfold Accounted at hacc
    rw [hm] at hacc
    exact hacc.mem_iff.1 (List.mem_append_right _ ht)
  cases he : s.ending task with
  | some e => exact goesOn hopen (.join task) rfl (by simp [stepOpen, hm, ht, he])
  | none =>
    cases task with
    | csvWriter => exact writer_goesOn hopen ((mem_spawned hmem).1 (.inl rfl)) hc he
    | subscriber =>
      have ho := (mem_spawned hmem).1 (.inr rfl)
      have he : s.subscriberEnding = none := he
      exact goesOn hopen .subscriberCancelled rfl (by simp [stepOpen, ho, he, hc])
    | timeout =>
      refine timeout_goesOn hopen hc ?_ he
      intro habsent
      exact (mem_spawned hmem).2 rfl (hW.timeout hopen habsent)
    | blockhashUpdater =>
      rcases Bool.eq_false_or_eq_true s.scheduler.alive with ha | ha
      · exact scheduler_goesOn hW hm hc ha
      · exact updater_goesOn hm (hW.receiver ha) he
    | stats =>
      have hrun : s.statsRunning = true := by simpa [Tool.ending] using he
      exact goesOn hopen .statsEnds rfl (by simp [stepOpen, hrun, hW.child hc])
    | scheduler =>
      refine scheduler_goesOn hW hm hc ?_
      cases hs : s.scheduler with
      | ended e => simp [Tool.ending, hs] at he
      | notSpawned | starting | running => rfl

/-- Until `run_client` has ended some closing step is possible. -/
theorem closing_progress (hW : Wired P s) (hJ : Joins P s) (hopen : s.main.over = false)
    (hc : s.cancelled = true) : GoesOn P s := by
  cases hm : s.main with
  | fetchingBlockhash => exact goesOn hopen (.blockhash none) rfl (by simp [stepOpen, hm])
  | creatingLeaderUpdater => exact goesOn hopen (.leaderUpdater false) rfl (by simp [stepOpen, hm])
  | joining =>
    cases hu : s.unjoined with
    | nil => exact goesOn hopen .finish rfl (by simp [stepOpen, hm, hu])
    | cons task rest => exact unjoined_goesOn hW hJ hm hc (hu ▸ List.mem_cons_self)
  | returned | panicked =>
    rw [hm] at hopen
    cases hopen

/-- The closing steps alone. -/
def shutdown (P : ToolParams) : LTS Tool ToolLabel :=
  (tool P).guard fun s l => s.closing l = true

theorem closing_ranking : Ranking (shutdown P)
    (fun s => (tool P).Reachable s ∧ s.cancelled = true) Tool.work (·.main.over = true) where
  keeps _ _ _ hq hs := ⟨hq.1.step hs.2, cancelled_step hs.2 hq.2⟩
  lowers _ _ _ _ hs := closing_lowers hs.2 hs.1
  enabled _ hq hg :=
    closing_progress (wired_reachable hq.1) (joins_reachable hq.1) (Bool.eq_false_iff.2 hg) hq.2

/-- **The end.** Once the parent token is cancelled, whatever state the tasks are in: the closing
steps can only go on for as long as work is left, `run_client` has ended where they cannot, and
there is a way there. -/
theorem shutdown_ends (h : (tool P).Reachable s) (hc : s.cancelled = true) :
    (∀ ls s', (shutdown P).Run s ls s' → ls.length ≤ s.work ∧
      ((∀ l t, ¬ (shutdown P).step s' l t) → s'.main.over = true)) ∧
    ∃ ls s', (shutdown P).Run s ls s' ∧ s'.main.over = true := by
  have hR := closing_ranking (P := P)
  refine ⟨?_, hR.reaches ⟨h, hc⟩⟩
  intro ls s' hr
  refine ⟨?_, hR.maximal hr ⟨h, hc⟩⟩
  have hle := hR.length_le hr ⟨h, hc⟩
  omega

theorem shutdown_ends_tenSeconds : ∃ s, (tool tenSeconds).Reachable s ∧ s.cancelled = true ∧
    ∃ ls s', (shutdown tenSeconds).Run s ls s' ∧ ls.length ≤ s.work ∧ s'.main.over = true := by
  obtain ⟨s, hs, hc⟩ := tenSeconds_reachable cancelledLabels (·.cancelled) true rfl
  obtain ⟨hbound, ls, s', hrun, hover⟩ := shutdown_ends hs hc
  exact ⟨s, hs, hc, ls, s', hrun, (hbound ls s' hrun).1, hover⟩

end TpuTools.Client
