import TpuTools.L3Writer.BlockRows
import TpuTools.L4Client.Tool

/-!
# The tasks of `run_client`

What the tasks share and what becomes of it: the writer does what it does alone, an ending and a
cancellation are final, and the scheduler owns the sender of the tracker channel and the receiver
of the blockhashes.

* `tool_writer_reachable`: unless its file cannot be created, the writer of the tool is the one of
  `L3Writer`.
* `ending_step`, `cancelled_step`: what is final.
* `tracker_listens`: before the cancellation the tracker channel takes every record.
* `Wired`: who owns what, in each phase.
-/
namespace TpuTools.Client
open Subscriber Writer

variable {P : ToolParams} {s s' : Tool} {l : ToolLabel}

/-! ## The writer -/

/-- What a step does to the writer: nothing, or one step of its own, or its file could not be
created. -/
theorem tool_writer (h : toolStep P s l = some s') :
    s'.client.writer = s.client.writer ∨
      (∃ wl, step s.client.writer wl = some s'.client.writer) ∨
      s'.csvFile = .failed ∧ s'.client.writer = uncreated s.client.writer := by
  cases (tool_move h).2 with
  | noEndpoint | tickEnds | schedulerEnds => exact .inr (.inl ⟨.dropTracker, rfl⟩)
  | stopAll | delayElapsed | signal | joinFailed => exact .inr (.inl ⟨.cancel, rfl⟩)
  | @tick slot timestamp txStatus signature hs =>
    rcases sendRecord_cases s.client.built
      (tickRecord s.client signature.toText slot timestamp txStatus) with ⟨w, hw, heq⟩ | heq
    · rw [heq]
      exact .inr (.inl ⟨_, hw⟩)
    · rw [heq]
      exact .inl rfl
  | fileFailed => exact .inr (.inr ⟨rfl, rfl⟩)
  | @writer wl w _ hown hwl hw => exact .inr (.inl ⟨wl, hw⟩)
  | @subscriber pl p hpl hp =>
    rcases pipelineStep_writer hp with hw | hw
    · exact .inl hw
    · exact .inr (.inl hw)
  | _ => exact .inl rfl

/-- The file is created once. -/
theorem csvFile_step (h : toolStep P s l = some s') (hf : s.csvFile ≠ .creating) :
    s'.csvFile = s.csvFile := by
  cases (tool_move h).2 with
  | fileCreated hc | fileFailed hc => exact absurd hc hf
  | _ => rfl

theorem started_client (h : Tool.Started P s) : s.client = .init := by
  rcases h with rfl | ⟨-, rfl⟩ <;> rfl

/-- Seen from the writer, a run of the tool is a run of the writer. -/
theorem tool_writer_reachable (h : (tool P).Reachable s) :
    s.csvFile ≠ .failed → Writer.lts.Reachable s.client.writer := by
  refine LTS.Inductive.reachable
    (P := fun s => s.csvFile ≠ .failed → Writer.lts.Reachable s.client.writer) ⟨?_, ?_⟩ s h
  · intro s hs _
    rw [started_client hs]
    exact .init rfl
  · intro s l s' ih hs hne
    have hbefore : s.csvFile ≠ .failed := by
      intro hf
      rw [csvFile_step hs (by rw [hf]; exact CsvFile.noConfusion)] at hne
      exact hne hf
    rcases tool_writer hs with hw | ⟨wl, hw⟩ | ⟨hf, -⟩
    · rw [hw]
      exact ih hbefore
    · exact (ih hbefore).step (l := wl) hw
    · exact absurd hf hne

/-- The end of `run_csv_writer` is final. -/
theorem finished_step {w w' : CsvWriter} {wl : Writer.Label} (h : step w wl = some w')
    (hf : w.finished = true) : w'.finished = true := by
  simp only [CsvWriter.finished, Bool.and_eq_true, Bool.not_eq_true'] at hf
  obtain ⟨⟨⟨hb, hs⟩, ht⟩, ho⟩ := hf
  cases step_move h with
  | blockTake hrun | join hrun | joinPoisoned hrun | blockClosed hrun | blockCancelled hrun =>
    simp [CsvWriter.blockDone, hrun] at hb
  | sweep hrun | sweepPoisoned hrun | sweepCancelled hrun =>
    simp [CsvWriter.sweepDone, hrun] at hs
  | sendTracked _ hrun | insert hrun | insertPoisoned hrun | trackClosed hrun | dump hrun
  | dumpPoisoned hrun => simp [CsvWriter.trackDone, hrun] at ht
  | writerTake hw | writeRow hw | flush hw | flushFailed hw | writerClosed hw =>
    simp [CsvWriter.writerOpen, hw] at ho
  | _ => simpa [CsvWriter.finished, CsvWriter.blockDone, CsvWriter.sweepDone,
      CsvWriter.trackDone, CsvWriter.writerOpen] using And.intro (And.intro (And.intro hb hs) ht) ho

theorem finished_of_tool (h : toolStep P s l = some s')
    (hf : s.client.writer.finished = true) : s'.client.writer.finished = true := by
  rcases tool_writer h with hw | ⟨wl, hw⟩ | ⟨-, hw⟩
  · rw [hw]
    exact hf
  · exact finished_step hw hf
  · rw [hw]
    rfl

/-- A writer that could not create its file has ended. -/
theorem uncreated_finished (h : (tool P).Reachable s) :
    s.csvFile = .failed → s.client.writer.finished = true := by
  refine LTS.Inductive.reachable
    (P := fun s => s.csvFile = .failed → s.client.writer.finished = true) ⟨?_, ?_⟩ s h
  · rintro s (rfl | ⟨-, rfl⟩) hf
    · cases hf
    · cases hf
  · intro s l s' ih hs hf
    cases (tool_move hs).2 with
    | fileFailed => rfl
    | fileCreated => cases hf
    | _ => exact finished_of_tool hs (ih hf)

/-- Once the scheduler is spawned, an ending is final. -/
theorem ending_step (h : toolStep P s l = some s') (hm : s.main = .joining) {task : TaskName}
    {e : Ending} (he : s.ending task = some e) : s'.ending task = some e := by
  have hmove := (tool_move h).2
  cases task with
  | csvWriter =>
    unfold Tool.ending at he
    cases hf : s.csvFile with
    | creating =>
      rw [hf] at he
      cases he
    | created =>
      have hf' := (csvFile_step h (by rw [hf]; exact CsvFile.noConfusion)).trans hf
      simp only [hf, Option.ite_none_right_eq_some] at he
      simp only [Tool.ending, hf', Option.ite_none_right_eq_some]
      exact ⟨finished_of_tool h he.1, he.2⟩
    | failed =>
      have hf' := (csvFile_step h (by rw [hf]; exact CsvFile.noConfusion)).trans hf
      simp only [hf] at he
      simp only [Tool.ending, hf', he]
  | subscriber =>
    cases hmove with
    | subscriberEnds hs | subscriberCancelled hs => cases hs.symm.trans he
    | _ => exact he
  | timeout =>
    simp only [Tool.ending] at he
    cases hmove with
    | stopSending ht | stopAll ht | delayElapsed ht | timeoutCancelled ht =>
      rw [ht] at he
      cases he
    | _ => exact he
  | blockhashUpdater =>
    simp only [Tool.ending] at he
    cases hmove with
    | fetched hm' | notFetched hm' => cases hm.symm.trans hm'
    | @updater bl u _ hd hu =>
      cases Blockhash.step_move hu with
      | advance => exact he
      | dropReceivers => exact absurd rfl hd
      | start hp | closed hp | fetch hp | answer hp | changed hp | same hp | failed hp | sent hp
      | broken hp | stuck hp | fresh hp | warned hp =>
        rw [hp] at he
        cases he
    | _ => exact he
  | stats =>
    cases hmove with
    | spawned hm' => cases hm.symm.trans hm'
    | statsEnds =>
      simp only [Tool.ending] at he ⊢
      split at he
      · cases he
      · exact he
    | _ => exact he
  | scheduler =>
    simp only [Tool.ending] at he
    cases hmove with
    | spawned hm' => cases hm.symm.trans hm'
    | endpoint hs | noEndpoint hs | tickEnds hs | schedulerEnds hs =>
      rw [hs] at he
      cases he
    | _ => exact he

/-- A cancellation is never taken back. -/
theorem cancelled_step (h : toolStep P s l = some s') (hc : s.cancelled = true) :
    s'.cancelled = true := by
  unfold Tool.cancelled at hc ⊢
  rcases tool_writer h with hw | ⟨wl, hw⟩ | ⟨-, hw⟩
  · rw [hw]
    exact hc
  · by_contra hn
    have hback := (step_mono hw).1 (Bool.eq_false_iff.2 hn)
    cases hc.symm.trans hback
  · rw [hw]
    exact hc

/-! ## What belongs together -/

/-- The tracker task ends in two ways only, if no `unwrap` fails. -/
structure Listening (w : CsvWriter) : Prop where
  cancelled : w.track = .cancelled → w.cancelled = true
  closed : w.track = .closed → w.trackOpen = false

theorem listening_step {w w' : CsvWriter} {wl : Writer.Label} (h : step w wl = some w')
    (hL : Listening w) : Listening w' := by
  cases step_move h with
  | trackClosed =>
    obtain ⟨⟨-, -, hopen⟩, -⟩ := of_guard h
    exact ⟨fun hc => TrackPc.noConfusion hc, fun _ => hopen⟩
  | dump _ hc => exact ⟨fun _ => hc, fun ht => TrackPc.noConfusion ht⟩
  | insertPoisoned | dumpPoisoned =>
    exact ⟨fun ht => TrackPc.noConfusion ht, fun ht => TrackPc.noConfusion ht⟩
  | insert =>
    refine ⟨?_, ?_⟩ <;> intro ht <;> simp only at ht <;> split at ht <;> cases ht
  | dropTracker => exact ⟨hL.cancelled, fun _ => rfl⟩
  | cancel => exact ⟨fun _ => rfl, hL.closed⟩
  | _ => exact ⟨hL.cancelled, hL.closed⟩

/-- The tracker task takes records as long as its channel is open and nothing is cancelled. -/
theorem tracker_listens {w : CsvWriter} (hr : Writer.lts.Reachable w) (hP : Promised w.sent)
    (ho : w.trackOpen = true) (hc : w.cancelled = false) : w.track = .running := by
  have hL : Listening w := by
    refine LTS.Inductive.reachable (P := Listening) ⟨?_, ?_⟩ w hr
    · intro w hw
      rw [show w = .init from hw]
      exact ⟨fun ht => TrackPc.noConfusion ht, fun ht => TrackPc.noConfusion ht⟩
    · intro w wl w' hL hs
      exact listening_step hs hL
  cases ht : w.track with
  | running => rfl
  | closed => cases ho.symm.trans (hL.closed ht)
  | cancelled => cases hc.symm.trans (hL.cancelled ht)
  | panicked => exact absurd ht (intact_reachable hr hP).track

/-- The subscriber's steps are, for the writer, its own. -/
theorem subscriber_writer {checks : Bool} {known : KnownAccounts} {p p' : Pipeline}
    {pl : PipelineLabel} (h : pipelineStep checks known p pl = some p')
    (hpl : isSubscriberLabel pl = true) :
    p'.writer = p.writer ∨ ∃ wl, isOwnLabel wl = true ∧ step p.writer wl = some p'.writer := by
  cases pl with
  | arrive u =>
    simp only [pipelineStep] at h
    split at h
    · cases h
    · cases h
      exact .inl rfl
  | emitNext i =>
    simp only [pipelineStep] at h
    split at h
    · rename_i r rest _
      split at h
      · cases h
        exact .inl rfl
      · obtain ⟨w, hw, rfl⟩ := Option.map_eq_some_iff.1 h
        exact .inr ⟨.sendBlock r, rfl, hw⟩
    · cases h
  | dropSenders =>
    simp only [pipelineStep] at h
    split at h
    · obtain ⟨w, hw, rfl⟩ := Option.map_eq_some_iff.1 h
      exact .inr ⟨.dropBlock, rfl, hw⟩
    · cases h
  | stop | writer => cases hpl

/-- What an own step of the writer leaves to the scheduler. -/
theorem own_keeps {w w' : CsvWriter} {wl : Writer.Label} (hown : isOwnLabel wl = true)
    (h : step w wl = some w') :
    w'.sent = w.sent ∧ w'.trackOpen = w.trackOpen ∧ w'.cancelled = w.cancelled := by
  cases step_move h <;> first | exact ⟨rfl, rfl, rfl⟩ | cases hown

theorem subscriber_keeps {checks : Bool} {known : KnownAccounts} {p p' : Pipeline}
    {pl : PipelineLabel} (h : pipelineStep checks known p pl = some p')
    (hpl : isSubscriberLabel pl = true) : p'.writer.sent = p.writer.sent ∧
      p'.writer.trackOpen = p.writer.trackOpen ∧ p'.writer.cancelled = p.writer.cancelled := by
  rcases subscriber_writer h hpl with hw | ⟨wl, hown, hw⟩
  · rw [hw]
    exact ⟨rfl, rfl, rfl⟩
  · exact own_keeps hown hw

def SchedulerPhase.alive : SchedulerPhase → Bool
  | .ended _ => false
  | _ => true

/-- What the tasks own and which of them are there. -/
structure Wired (P : ToolParams) (s : Tool) : Prop where
  promised : Promised s.client.writer.sent
  sender : s.scheduler.alive = true →
    s.client.schedulerRunning = true ∧ s.client.writer.trackOpen = true
  receiver : s.scheduler.alive = false → s.updater.channel.receivers = false
  child : s.cancelled = true → s.client.sendCancelled = true
  waiting : s.main = .fetchingBlockhash ∨ s.main = .creatingLeaderUpdater →
    s.scheduler = .notSpawned
  spawned : s.main = .joining → s.scheduler ≠ .notSpawned
  timeout : s.main.over = false → s.timeout = .absent → P.duration = none

theorem wired_started (h : Tool.Started P s) : Wired P s := by
  have hpromised : Promised s.client.writer.sent := by
    rw [started_client h]
    intro p hp
    cases hp
  rcases h with rfl | ⟨-, rfl⟩
  · refine ⟨hpromised, fun _ => ⟨rfl, rfl⟩, fun ha => Bool.noConfusion ha,
      fun hc => Bool.noConfusion hc, fun _ => rfl, fun hm => MainPhase.noConfusion hm, ?_⟩
    intro _ ht
    simp only [Tool.init] at ht
    split at ht
    · cases ht
    · rename_i hd
      exact Option.not_isSome_iff_eq_none.1 hd
  · exact ⟨hpromised, fun _ => ⟨rfl, rfl⟩, fun ha => Bool.noConfusion ha,
      fun hc => Bool.noConfusion hc, fun _ => rfl, fun hm => MainPhase.noConfusion hm,
      fun hopen => Bool.noConfusion hopen⟩

theorem promised_snoc {sent : List CSVRecord} {c : RunClient} {signature : String}
    {slot timestamp : Nat} {txStatus : List (TransactionSendStatus × String)}
    (h : Promised sent) : Promised (sent ++ [tickRecord c signature slot timestamp txStatus]) := by
  intro p hp
  rcases List.mem_append.1 hp with hp | hp
  · exact h p hp
  · rw [List.mem_singleton.1 hp]
    exact ⟨rfl, rfl⟩

/-- The scheduler ends. -/
theorem Wired.schedulerEnded (hW : Wired P s) (hne : s.scheduler ≠ .notSpawned) (e : Ending) :
    Wired P (s.schedulerEnded e) where
  promised := hW.promised
  sender h := by cases h
  receiver _ := rfl
  child := hW.child
  waiting hm := absurd (hW.waiting hm) hne
  spawned _ h := by cases h
  timeout := hW.timeout

theorem wired_tick {signature : String} {slot timestamp : Nat}
    {txStatus : List (TransactionSendStatus × String)} (hs : s.scheduler = .running)
    (hW : Wired P s) : Wired P { s with
      client := s.client.built.sendRecord (tickRecord s.client signature slot timestamp txStatus) }
    := by
  obtain ⟨hrun, hopen⟩ := hW.sender (by rw [hs]; rfl)
  have hrun' := (sendRecord_schedulerRunning s.client.built
    (tickRecord s.client signature slot timestamp txStatus)).trans hrun
  rcases sendRecord_cases s.client.built
    (tickRecord s.client signature slot timestamp txStatus) with ⟨w, hw, heq⟩ | heq
  · obtain ⟨-, rfl⟩ := of_guard hw
    refine ⟨?_, fun _ => ⟨hrun', ?_⟩, hW.receiver, ?_, hW.waiting, hW.spawned, hW.timeout⟩
    · rw [heq]
      exact promised_snoc hW.promised
    · rw [heq]
      exact hopen
    · unfold Tool.cancelled
      rw [heq]
      exact hW.child
  · refine ⟨?_, fun _ => ⟨hrun', ?_⟩, hW.receiver, ?_, hW.waiting, hW.spawned, hW.timeout⟩
    · rw [heq]
      exact hW.promised
    · rw [heq]
      exact hopen
    · rw [heq]
      exact fun _ => rfl

theorem wired_step (h : toolStep P s l = some s') (hW : Wired P s) : Wired P s' := by
  have htimeout := hW.timeout (tool_move h).1
  cases (tool_move h).2 with
  | fetched hm =>
    have hs := hW.waiting (.inl hm)
    refine ⟨hW.promised, hW.sender, ?_, hW.child, fun _ => hs, fun hj => MainPhase.noConfusion hj,
      fun _ => htimeout⟩
    intro ha
    rw [hs] at ha
    cases ha
  | notFetched | noLeaderUpdater | finish =>
    exact ⟨hW.promised, hW.sender, hW.receiver, hW.child, by simp, by simp, fun _ => htimeout⟩
  | spawned hm =>
    have hs := hW.sender (by rw [hW.waiting (.inr hm)]; rfl)
    exact ⟨hW.promised, fun _ => hs, by simp [SchedulerPhase.alive], hW.child, by simp, by simp,
      fun _ => htimeout⟩
  | endpoint hs =>
    have hsend := hW.sender (by rw [hs]; rfl)
    refine ⟨hW.promised, fun _ => hsend, by simp [SchedulerPhase.alive], hW.child, ?_, by simp,
      fun _ => htimeout⟩
    intro hm
    cases hs.symm.trans (hW.waiting hm)
  | noEndpoint hs | tickEnds hs | schedulerEnds hs => exact hW.schedulerEnded (by simp [hs]) _
  | tick hs => exact wired_tick hs hW
  | writer _ hown _ hw =>
    obtain ⟨hsent, hopen, hcancelled⟩ := own_keeps hown hw
    refine ⟨hsent ▸ hW.promised, ?_, hW.receiver, ?_, hW.waiting, hW.spawned, fun _ => htimeout⟩
    · simp only [hopen]
      exact hW.sender
    · simp only [Tool.cancelled, hcancelled]
      exact hW.child
  | subscriber hpl hp =>
    obtain ⟨hsent, hopen, hcancelled⟩ := subscriber_keeps hp hpl
    refine ⟨?_, ?_, hW.receiver, ?_, hW.waiting, hW.spawned, fun _ => htimeout⟩
    · show Promised (Pipeline.writer _).sent
      rw [hsent]
      exact hW.promised
    · simp only [Tool.withPipeline, hopen]
      exact hW.sender
    · simp only [Tool.cancelled, Tool.withPipeline, hcancelled]
      exact hW.child
  | @updater bl u _ hd hu =>
    refine ⟨hW.promised, hW.sender, ?_, hW.child, hW.waiting, hW.spawned, fun _ => htimeout⟩
    intro ha
    have hr := hW.receiver ha
    cases Blockhash.step_move hu with
    | dropReceivers => exact absurd rfl hd
    | _ => exact hr
  | stopSending => exact ⟨hW.promised, hW.sender, hW.receiver, fun _ => rfl, hW.waiting, hW.spawned,
      fun _ ht => TimeoutPhase.noConfusion ht⟩
  | stopAll | delayElapsed => exact ⟨hW.promised, hW.sender, hW.receiver, fun _ => rfl, hW.waiting,
      hW.spawned, fun _ ht => TimeoutPhase.noConfusion ht⟩
  | timeoutCancelled => exact ⟨hW.promised, hW.sender, hW.receiver, hW.child, hW.waiting,
      hW.spawned, fun _ ht => TimeoutPhase.noConfusion ht⟩
  | signal | joinFailed => exact ⟨hW.promised, hW.sender, hW.receiver, fun _ => rfl, hW.waiting,
      hW.spawned, fun _ => htimeout⟩
  | _ => exact ⟨hW.promised, hW.sender, hW.receiver, hW.child, hW.waiting, hW.spawned,
      fun _ => htimeout⟩

theorem wired_reachable (h : (tool P).Reachable s) : Wired P s := by
  refine LTS.Inductive.reachable (P := Wired P) ⟨?_, ?_⟩ s h
  · exact fun s hs => wired_started hs
  · intro s l s' hW hs
    exact wired_step hs hW

end TpuTools.Client
