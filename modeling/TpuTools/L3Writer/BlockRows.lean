import TpuTools.L3Writer.Shutdown

/-!
# What reaches the file

As long as no write fails, the writer task outlives the other three and every row they send gets
into the file, in the order of the sends. A block task that ends because its channel is closed
has handled all that was sent to it; one that is cancelled leaves the rest of the channel
behind.

* `WritesOk`: the runs without a failing write.
* `Flowing`: what holds in between.
* **`file_exact`**: the file when `run_csv_writer` returns.
-/
namespace TpuTools.Writer

variable {s s' : CsvWriter} {l : Label}

/-- Writing and flushing do not fail. -/
def WritesOk (_ : CsvWriter) : Label → Prop
  | .writeRow ok | .flush ok => ok = true
  | _ => True

instance (s : CsvWriter) : (l : Label) → Decidable (WritesOk s l)
  | .writeRow ok | .flush ok => inferInstanceAs (Decidable (ok = true))
  | .sendTracked _ | .dropTracker | .sendBlock _ | .dropBlock | .cancel | .blockTake
  | .blockHandle | .blockClosed | .blockCancelled | .sweepTick _ | .sweepCancelled | .trackInsert
  | .trackClosed | .trackCancelled | .writerTake | .writerClosed => .isTrue trivial

structure Flowing (s : CsvWriter) : Prop where
  piped : Piped s
  /-- the writer task outlives the others -/
  open_ : s.writerOpen = false → s.blockDone = true ∧ s.sweepDone = true ∧ s.trackDone = true
  handled : blockRows s = s.joined.map fun j => joinRow j.1 j.2

/-- Only the failing writes are careless about the rows on their way. -/
theorem careful_of_writes (hl : l.writes = true) (hw : WritesOk s l) : Careful s l := by
  cases l <;> first | exact hw | exact trivial | cases hl

theorem piped_of_writesOk (h : step s l = some s') (hw : WritesOk s l) (hP : Piped s) :
    Piped s' := by
  rcases Bool.eq_false_or_eq_true l.writes with hl | hl
  · exact piped_step h (careful_of_writes hl hw) hP
  · obtain ⟨h1, h2, h3, new, h4, h5, h6⟩ := step_adds hl h
    have hin : s'.inWriting = s.inWriting := by
      unfold CsvWriter.inWriting
      rw [h3]
    refine ⟨?_, ?_, ?_, ?_⟩
    · rw [h1, h2, hin, h4, h5, ← List.append_assoc, hP.rows, List.map_append, List.cons_append]
    · rw [h2, h3]
      exact hP.flushed
    · intro hc
      rw [h3] at hc
      have ho : s.writerOpen = false := by simp [CsvWriter.writerOpen, hc]
      rw [h5, h6 ho, hP.closed hc]
      rfl
    · rw [h3]
      exact hP.not_failed

/-- The rows of another task are none of the block task's. -/
theorem blockRows_other {source : Source} (records : List CSVRecord) (hne : source ≠ .block) :
    blockRows (s.sendRows source records) = blockRows s := by
  rcases Bool.eq_false_or_eq_true s.writerOpen with ho | ho
  · rw [blockRows_sendRows source records ho, if_neg hne, List.append_nil]
  · simp [blockRows, CsvWriter.sendRows, ho]

theorem flowing_step (h : step s l = some s') (hw : WritesOk s l) (hF : Flowing s) :
    Flowing s' := by
  have hpiped := piped_of_writesOk h hw hF.piped
  -- a task that is running finds the writer channel open
  have hopen : s.blockDone = false ∨ s.sweepDone = false ∨ s.trackDone = false →
      s.writerOpen = true := by
    intro hrun
    by_contra ho
    obtain ⟨h1, h2, h3⟩ := hF.open_ (Bool.eq_false_iff.2 ho)
    simp [h1, h2, h3] at hrun
  cases step_move h with
  | blockTake hb =>
    refine ⟨hpiped, ?_, hF.handled⟩
    intro ho
    have ho' := hopen (.inl (by simp [CsvWriter.blockDone, hb]))
    cases ho'.symm.trans ho
  | @join record rest hb =>
    have ho := hopen (.inl (by simp [CsvWriter.blockDone, hb]))
    refine ⟨hpiped, ?_, ?_⟩
    · intro ho'
      cases ho.symm.trans ho'
    · have hrows : blockRows (s.join record rest) = blockRows s ++
          if Source.block = .block then [joinRow record (s.lookup record)] else [] :=
        blockRows_sendRows _ _ ho
      rw [hrows, if_pos rfl, hF.handled]
      show _ = (s.joined ++ [(record, s.lookup record)]).map _
      rw [List.map_append]
      rfl
  | blockClosed | blockCancelled | joinPoisoned =>
    refine ⟨hpiped, ?_, hF.handled⟩
    intro ho
    exact ⟨rfl, (hF.open_ ho).2⟩
  | sweepPoisoned | sweepCancelled =>
    refine ⟨hpiped, ?_, hF.handled⟩
    intro ho
    obtain ⟨h1, -, h3⟩ := hF.open_ ho
    exact ⟨h1, rfl, h3⟩
  | sweep hrun =>
    have ho := hopen (.inr (.inl (by simp [CsvWriter.sweepDone, hrun])))
    refine ⟨hpiped, ?_, ?_⟩
    · intro ho'
      cases ho.symm.trans ho'
    · exact (blockRows_other _ (by decide)).trans hF.handled
  | insert hrun =>
    have ho := hopen (.inr (.inr (by simp [CsvWriter.trackDone, hrun])))
    refine ⟨hpiped, ?_, hF.handled⟩
    intro ho'
    cases ho.symm.trans ho'
  | insertPoisoned | dumpPoisoned | trackClosed =>
    refine ⟨hpiped, ?_, hF.handled⟩
    intro ho
    obtain ⟨h1, h2, -⟩ := hF.open_ ho
    exact ⟨h1, h2, rfl⟩
  | dump =>
    refine ⟨hpiped, ?_, ?_⟩
    · intro ho
      obtain ⟨h1, h2, -⟩ := hF.open_ ho
      exact ⟨h1, h2, rfl⟩
    · exact (blockRows_other _ (by decide)).trans hF.handled
  | writerTake | writeRow | flush =>
    exact ⟨hpiped, by simp [CsvWriter.writerOpen], hF.handled⟩
  | flushFailed => cases hw
  | writerClosed _ _ hdone => exact ⟨hpiped, fun _ => hdone, hF.handled⟩
  | _ => exact ⟨hpiped, hF.open_, hF.handled⟩

theorem flowing_reachable (h : (lts.guard WritesOk).Reachable s) : Flowing s := by
  refine LTS.Inductive.reachable (P := Flowing) ⟨?_, ?_⟩ s h
  · intro s hs
    rw [hs]
    exact ⟨⟨rfl, fun _ => rfl, fun _ => rfl, by simp [CsvWriter.init]⟩,
      by simp [CsvWriter.init, CsvWriter.writerOpen], rfl⟩
  · intro s l s' hF hs
    exact flowing_step hs.2 hs.1 hF

/-- A block task that found its channel closed left nothing in it. -/
theorem drained_step (h : step s l = some s')
    (hD : s.block = .closed → s.blockChan = [] ∧ s.blockOpen = false) :
    s'.block = .closed → s'.blockChan = [] ∧ s'.blockOpen = false := by
  intro hb
  cases step_move h with
  | blockClosed =>
    obtain ⟨⟨-, hempty, hclosed⟩, -⟩ := of_guard h
    exact ⟨hempty, hclosed⟩
  | sendBlock hopen =>
    have hclosed := (hD hb).2
    cases hopen.symm.trans hclosed
  | blockTake | joinPoisoned | join | blockCancelled => cases hb
  | dropBlock => exact ⟨(hD hb).1, rfl⟩
  | _ => exact hD hb

theorem drained_reachable (h : lts.Reachable s) :
    s.block = .closed → s.blockChan = [] ∧ s.blockOpen = false := by
  refine LTS.Inductive.reachable
    (P := fun s => s.block = .closed → s.blockChan = [] ∧ s.blockOpen = false) ⟨?_, ?_⟩ s h
  · intro s hs hb
    rw [hs] at hb
    cases hb
  · intro s l s' hD hs
    exact drained_step hs hD

/-- All four tasks have ended, without a failing write. -/
theorem Flowing.file (hF : Flowing s) (hf : s.finished = true) :
    s.file = CSVRecord.fieldNames :: s.rows.map (·.2.asCsvRecord) := by
  unfold CsvWriter.finished at hf
  have ho : s.writerOpen = false := by
    rw [Bool.and_eq_true, Bool.not_eq_true'] at hf
    exact hf.2
  have hclosed : s.writer = .closed := by
    cases hw : s.writer with
    | receiving | writing => simp [CsvWriter.writerOpen, hw] at ho
    | failed => exact absurd hw hF.piped.not_failed
    | closed => rfl
  have hrows := hF.piped.rows
  rw [hF.piped.flushed (.inr hclosed), hF.piped.closed hclosed] at hrows
  simpa only [CsvWriter.inWriting, hclosed, List.append_nil] using hrows

/-- The block records handled are those that were sent, when the channel was closed. -/
theorem joined_received (hr : lts.Reachable s) (hb : s.block = .closed) :
    s.joined.map (·.1) = s.received := by
  have hblocks := (streams_reachable hr).taken (by simp [hb])
  have hin : s.inHand = [] := by simp [CsvWriter.inHand, hb]
  rw [hin, (drained_reachable hr hb).1, List.append_nil, List.append_nil] at hblocks
  exact hblocks

/-- **The file.** When `run_csv_writer` returns and no write failed, the file is the header and
the rows of the three tasks in the order they were sent. The rows of the block task are the block
records, each with the entry it took; and when the block channel was closed before the
cancellation, these are all the records that were sent to it, in their order. -/
theorem file_exact (h : (lts.guard WritesOk).Reachable s) (hf : s.finished = true) :
    s.file = CSVRecord.fieldNames :: s.rows.map (·.2.asCsvRecord) ∧
    blockRows s = s.joined.map (fun j => joinRow j.1 j.2) ∧
    (s.block = .closed → s.joined.map (·.1) = s.received) := by
  have hF := flowing_reachable h
  exact ⟨hF.file hf, hF.handled, joined_received (LTS.guard_reachable h)⟩

/-- A record is joined with its block record, and both channels are closed. -/
def joinedLabels : List Label :=
  [.sendTracked (tracked 0 2 "signature"), .trackInsert, .sendBlock (reported 0 "signature"),
    .dropTracker, .dropBlock, .blockTake, .blockHandle, .blockClosed, .trackClosed, .cancel,
    .sweepCancelled, .writerTake, .writeRow true, .flush true, .writerClosed]

theorem file_exact_joined : ∃ s, (lts.guard WritesOk).Reachable s ∧ s.finished = true ∧
    s.received.length = 1 ∧ s.file = CSVRecord.fieldNames :: s.rows.map (·.2.asCsvRecord) ∧
    s.joined.map (·.1) = s.received := by
  have hrun : ∃ s, (lts.guard WritesOk).Run .init joinedLabels s ∧ s.finished = true ∧
      s.received.length = 1 ∧ s.block = .closed :=
    ⟨_, LTS.guard_run_of_exec (· = CsvWriter.init) step WritesOk joinedLabels _ _ rfl, rfl, rfl,
      rfl⟩
  obtain ⟨s, hr, hf, hlen, hclosed⟩ := hrun
  have hreach : (lts.guard WritesOk).Reachable s := ⟨_, joinedLabels, rfl, hr⟩
  obtain ⟨hfile, -, hreceived⟩ := file_exact hreach hf
  exact ⟨s, hreach, hf, hlen, hfile, hreceived hclosed⟩

end TpuTools.Writer
