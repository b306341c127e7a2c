import TpuTools.L3Writer.Conservation

/-!
# Shutdown of the CSV writer

What becomes of the sent records when the four tasks end. The tracker task dumps the map
when it is cancelled, but not when it finds its channel closed, and the dump leaves out what
is still queued; later only the block task and the sweep can write what is pending.

* `Careful`: the steps that leave no record behind.
* `Kept`: in runs of such steps an inserted record is pending or has a row, and as long as
  something is pending some task is left to write it.
* `Piped`: rows move from the channel to the file, in order.
* `all_written`: when all tasks have ended, every sent record has a row in the file.
-/
namespace TpuTools.Writer

variable {s s' : CsvWriter} {l : Label}

/-- Nothing is pending. -/
def Settled (s : CsvWriter) : Prop := s.pending.toList = []

/-- The tracker task ends on cancellation with an empty queue only; when it has ended on a
closed channel, the last of the block task and the sweep ends with an empty map only; a block
record takes no entry of another transaction; and writing does not fail. -/
def Careful (s : CsvWriter) : Label → Prop
  | .trackCancelled => s.trackChan = []
  | .trackClosed => s.blockDone = true → s.sweepDone = true → Settled s
  | .blockClosed | .blockCancelled => s.track = .closed → s.sweepDone = true → Settled s
  | .sweepCancelled => s.track = .closed → s.blockDone = true → Settled s
  | .blockHandle => ∀ record ∈ s.inHand.take 1, ∀ p ∈ s.lookup record,
      p.signature = record.signature
  | .writeRow ok | .flush ok => ok = true
  | _ => True

instance : Decidable (Settled s) := inferInstanceAs (Decidable (s.pending.toList = []))

instance (s : CsvWriter) : (l : Label) → Decidable (Careful s l)
  | .trackCancelled => inferInstanceAs (Decidable (s.trackChan = []))
  | .trackClosed =>
    inferInstanceAs (Decidable (s.blockDone = true → s.sweepDone = true → Settled s))
  | .blockClosed | .blockCancelled =>
    inferInstanceAs (Decidable (s.track = .closed → s.sweepDone = true → Settled s))
  | .sweepCancelled =>
    inferInstanceAs (Decidable (s.track = .closed → s.blockDone = true → Settled s))
  | .blockHandle =>
    inferInstanceAs (Decidable (∀ record ∈ s.inHand.take 1, ∀ p ∈ s.lookup record,
      p.signature = record.signature))
  | .writeRow ok | .flush ok => inferInstanceAs (Decidable (ok = true))
  | .sendTracked _ | .dropTracker | .sendBlock _ | .dropBlock | .cancel | .blockTake
  | .sweepTick _ | .trackInsert | .writerTake | .writerClosed => .isTrue trivial

/-- A row with the id and the signature of `p`. -/
def HasRow (s : CsvWriter) (p : CSVRecord) : Prop :=
  ∃ row ∈ s.rows, row.2.signature = p.signature ∧ row.2.transactionId = p.transactionId

structure Kept (s : CsvWriter) : Prop where
  inserted : ∀ p ∈ s.inserted, s.lookup p = some p ∨ HasRow s p
  /-- the writer task outlives the others -/
  open_ : s.writerOpen = false → s.blockDone = true ∧ s.sweepDone = true ∧ s.trackDone = true
  /-- a tracker task that has ended left its queue empty -/
  queue : s.trackDone = true → s.trackChan = []
  dumped : s.track = .cancelled → ∀ (i : Nat) (p : CSVRecord), s.pending[i]? = some p → HasRow s p
  settled : s.track = .closed → s.blockDone = true → s.sweepDone = true → Settled s

theorem HasRow.mono {p : CSVRecord} (h : HasRow s p) (hs : s.rows ⊆ s'.rows) : HasRow s' p := by
  obtain ⟨row, hr, h1⟩ := h
  exact ⟨row, hs hr, h1⟩

theorem settled_iff : Settled s ↔ ∀ i : Nat, s.pending[i]? = none := by
  unfold Settled
  rw [List.eq_nil_iff_forall_not_mem]
  constructor
  · intro h i
    cases hp : s.pending[i]? with
    | none => rfl
    | some p => exact absurd (mem_entries.2 hp) (h (i, p))
  · rintro h ⟨i, p⟩ he
    have := mem_entries.1 he
    rw [h i] at this
    cases this

theorem rows_subset_sendRows (source : Source) (records : List CSVRecord) :
    s.rows ⊆ (s.sendRows source records).rows :=
  List.subset_append_left _ _

theorem mem_sendRows {source : Source} {records : List CSVRecord} {x : CSVRecord}
    (ho : s.writerOpen = true) (hx : x ∈ records) :
    (source, x) ∈ (s.sendRows source records).rows := by
  rw [sendRows_rows source records ho]
  exact List.mem_append_right _ (List.mem_map_of_mem hx)

theorem Kept.open_of_running (hK : Kept s)
    (h : s.blockDone = false ∨ s.sweepDone = false ∨ s.trackDone = false) :
    s.writerOpen = true := by
  by_contra ho
  simp only [Bool.not_eq_true] at ho
  obtain ⟨h1, h2, h3⟩ := hK.open_ ho
  simp [h1, h2, h3] at h

/-! ## The steps on the map -/

section Steps

variable (hT : TrackerStream s.sent) (hI : Intact s) (hK : Kept s)

include hT hI in
theorem inserted_id {p : CSVRecord} (hp : p ∈ s.inserted) : ∃ i, p.transactionId = some i :=
  Option.isSome_iff_exists.1 (hT.promised p (hI.tracked ▸ List.mem_append_left _ hp)).1

theorem lookup_of_id {p : CSVRecord} {i : Nat} (hi : p.transactionId = some i) :
    s.lookup p = s.pending[i]? := by
  simp [CsvWriter.lookup, hi]

include hT hI hK in
theorem kept_join {record : CSVRecord} {rest : List CSVRecord}
    (hb : s.block = .running (record :: rest)) (hc : Careful s .blockHandle) :
    Kept (s.join record rest) := by
  have hrun : s.blockDone = false := by simp [CsvWriter.blockDone, hb]
  have hdone : (s.join record rest).blockDone = false := rfl
  have ho : s.writerOpen = true := hK.open_of_running (Or.inl hrun)
  have hsub : s.rows ⊆ (s.join record rest).rows := rows_subset_sendRows _ _
  refine ⟨?_, ?_, hK.queue, ?_, ?_⟩
  · intro p hp
    rcases hK.inserted p hp with hl | hr
    · obtain ⟨i, hi⟩ := inserted_id hT hI hp
      by_cases hri : record.transactionId = some i
      · -- the record takes `p`, whose signature it has
        right
        have hlr : s.lookup record = some p := by
          rw [lookup_of_id hri, ← lookup_of_id hi]
          exact hl
        have hsig := hc record (by simp [CsvWriter.inHand, hb]) p hlr
        have hx : (Source.block, joinRow record (s.lookup record)) ∈ (s.join record rest).rows :=
          @mem_sendRows { s with
              block := .running rest
              pending := s.removeId record
              joined := s.joined ++ [(record, s.lookup record)] } _ _ _ ho
            (List.mem_singleton.2 rfl)
        rw [hlr] at hx
        exact ⟨_, hx, hsig.symm, hri.trans hi.symm⟩
      · left
        have hl' : (s.join record rest).lookup p = (s.removeId record)[i]? := lookup_of_id hi
        rw [hl', removeId_get, if_neg hri, ← lookup_of_id hi]
        exact hl
    · exact Or.inr (hr.mono hsub)
  · intro ho'
    have : s.writerOpen = false := ho'
    rw [ho] at this
    cases this
  · intro htc i p hpi
    have hpi : (s.removeId record)[i]? = some p := hpi
    rw [removeId_get] at hpi
    split at hpi
    · cases hpi
    · exact (hK.dumped htc i p hpi).mono hsub
  · intro _ hbd
    rw [hdone] at hbd
    cases hbd

include hT hI hK in
theorem kept_sweep {now : Nat} (hrun : s.sweep = .running) (hok : (s.overAge now).2 = false) :
    Kept { s.sendRows .sweep ((s.overAge now).1.map (·.2)) with
      pending := s.swept now
      sweep := if (s.overAge now).2 then .panicked else .running
      poisoned := (s.overAge now).2 } := by
  have hnd : s.sweepDone = false := by simp [CsvWriter.sweepDone, hrun]
  have ho : s.writerOpen = true := hK.open_of_running (Or.inr (Or.inl hnd))
  have hsub : s.rows ⊆ (s.sendRows .sweep ((s.overAge now).1.map (·.2))).rows :=
    rows_subset_sendRows _ _
  refine ⟨?_, ?_, hK.queue, ?_, ?_⟩
  · intro p hp
    rcases hK.inserted p hp with hl | hr
    · obtain ⟨i, hi⟩ := inserted_id hT hI hp
      rw [lookup_of_id hi] at hl ⊢
      by_cases hmem : i ∈ (s.overAge now).1.map (·.1)
      · right
        obtain ⟨e, he, rfl⟩ := List.mem_map.1 hmem
        have hq := overAge_mem he
        rw [hl] at hq
        have hx := @mem_sendRows s .sweep _ e.2 ho (List.mem_map_of_mem he)
        rw [← Option.some.inj hq] at hx
        exact ⟨_, hx, rfl, rfl⟩
      · left
        have hl' : (s.swept now)[i]? = s.pending[i]? := by rw [swept_get now i hok, if_neg hmem]
        exact hl'.trans hl
    · exact Or.inr (hr.mono hsub)
  · intro ho'
    have : s.writerOpen = false := ho'
    rw [ho] at this
    cases this
  · intro htc i p hpi
    exact (hK.dumped htc i p (swept_sub hpi)).mono hsub
  · intro _ _ hsd
    simp [CsvWriter.sweepDone, hok] at hsd

include hT hI hK in
theorem kept_insert (hrun : s.track = .running) :
    Kept { s with
      trackChan := s.trackChan.drop READ_AT_ONCE
      pending := (insertAll s.pending s.group).1
      inserted := s.inserted ++ (insertAll s.pending s.group).2.1
      track := if (insertAll s.pending s.group).2.2 then .panicked else .running
      poisoned := (insertAll s.pending s.group).2.2 } := by
  have hnd : s.trackDone = false := by simp [CsvWriter.trackDone, hrun]
  have ho : s.writerOpen = true := hK.open_of_running (Or.inr (Or.inr hnd))
  have hsub : (s.inserted ++ s.group).Sublist s.sent := by
    rw [← hI.tracked]
    exact (List.Sublist.refl _).append (List.take_sublist _ _)
  have hids : ((s.inserted ++ s.group).map (·.transactionId)).Nodup := hT.ids.sublist (hsub.map _)
  rw [List.map_append, List.nodup_append] at hids
  obtain ⟨-, hndg, hdis⟩ := hids
  obtain ⟨hall, hbad⟩ := insertAll_ok s.group s.pending fun p hp =>
    (hT.promised p (hsub.subset (List.mem_append_right _ hp))).1
  refine ⟨?_, ?_, ?_, ?_, ?_⟩
  · intro p hp
    have hp : p ∈ s.inserted ++ (insertAll s.pending s.group).2.1 := hp
    rw [hall] at hp
    obtain ⟨i, hi⟩ := Option.isSome_iff_exists.1 (hT.promised p (hsub.subset hp)).1
    rw [lookup_of_id hi]
    rcases List.mem_append.1 hp with hp | hp
    · rcases hK.inserted p hp with hl | hr
      · left
        rw [lookup_of_id hi] at hl
        refine (insertAll_other s.group s.pending ?_).trans hl
        intro q hq hqi
        rw [hall] at hq
        exact hdis _ (List.mem_map_of_mem hp) _ (List.mem_map_of_mem hq) (hi.trans hqi.symm)
      · exact Or.inr hr
    · left
      exact insertAll_get s.group s.pending hndg (by rw [hall]; exact hp) hi
  · intro ho'
    have : s.writerOpen = false := ho'
    rw [ho] at this
    cases this
  · intro htd
    simp [CsvWriter.trackDone, hbad] at htd
  · intro htc
    simp [hbad] at htc
  · intro htc
    simp [hbad] at htc

include hK in
theorem kept_dump (hrun : s.track = .running) (hc : s.trackChan = []) :
    Kept { s.sendRows .dump (s.pending.toList.map (·.2)) with track := .cancelled } := by
  have hnd : s.trackDone = false := by simp [CsvWriter.trackDone, hrun]
  have ho : s.writerOpen = true := hK.open_of_running (Or.inr (Or.inr hnd))
  have hsub : s.rows ⊆ (s.sendRows .dump (s.pending.toList.map (·.2))).rows :=
    rows_subset_sendRows _ _
  refine ⟨?_, ?_, fun _ => hc, ?_, ?_⟩
  · intro p hp
    rcases hK.inserted p hp with hl | hr
    · exact Or.inl hl
    · exact Or.inr (hr.mono hsub)
  · intro ho'
    have : s.writerOpen = false := ho'
    rw [ho] at this
    cases this
  · intro _ i p hpi
    have hx := @mem_sendRows s .dump (s.pending.toList.map (·.2)) p ho
      (List.mem_map.2 ⟨(i, p), mem_entries.2 hpi, rfl⟩)
    exact ⟨_, hx, rfl, rfl⟩
  · intro htc
    simp at htc

end Steps

/-! ## The ends of the tasks -/

/-- A task that is still running keeps the writer open, and the rest does not change. -/
theorem kept_blockDone {pc : BlockPc} (hd : CsvWriter.blockDone { s with block := pc } = true)
    (hset : s.track = .closed → s.sweepDone = true → Settled s) (hK : Kept s) :
    Kept { s with block := pc } where
  inserted := hK.inserted
  open_ ho := ⟨hd, (hK.open_ ho).2⟩
  queue := hK.queue
  dumped := hK.dumped
  settled ht _ hsd := hset ht hsd

theorem kept_trackClosed (hc : s.trackChan = [])
    (hset : s.blockDone = true → s.sweepDone = true → Settled s) (hK : Kept s) :
    Kept { s with track := .closed } where
  inserted := hK.inserted
  open_ ho := ⟨(hK.open_ ho).1, (hK.open_ ho).2.1, rfl⟩
  queue _ := hc
  dumped ht := by simp at ht
  settled _ hbd hsd := hset hbd hsd

theorem kept_sweepCancelled (hset : s.track = .closed → s.blockDone = true → Settled s)
    (hK : Kept s) : Kept { s with sweep := .cancelled } where
  inserted := hK.inserted
  open_ ho := ⟨(hK.open_ ho).1, rfl, (hK.open_ ho).2.2⟩
  queue := hK.queue
  dumped := hK.dumped
  settled ht hbd _ := hset ht hbd

theorem kept_step (h : step s l = some s') (hc : Careful s l) (hB : Books s)
    (hT : TrackerStream s.sent) (hI : Intact s) (hK : Kept s) : Kept s' := by
  cases step_move h with
  | sendTracked _ hrun =>
    refine ⟨hK.inserted, hK.open_, ?_, hK.dumped, hK.settled⟩
    intro htd
    simp [CsvWriter.trackDone, hrun] at htd
  | blockTake hb =>
    refine ⟨hK.inserted, ?_, hK.queue, hK.dumped, ?_⟩
    · intro ho
      have := (hK.open_ ho).1
      simp [CsvWriter.blockDone, hb] at this
    · intro _ hbd
      simp [CsvWriter.blockDone] at hbd
  | join hb => exact kept_join hT hI hK hb hc
  | joinPoisoned _ hp | sweepPoisoned _ hp | insertPoisoned _ hp | dumpPoisoned _ hp =>
    rw [hI.poisoned] at hp
    cases hp
  | blockClosed | blockCancelled => exact kept_blockDone rfl hc hK
  | @sweep now hrun =>
    have hPi : Promised s.inserted := fun p hp =>
      hT.promised p (hI.tracked ▸ List.mem_append_left _ hp)
    exact kept_sweep hT hI hK hrun (overAge_ok now hB hPi)
  | sweepCancelled => exact kept_sweepCancelled hc hK
  | insert hrun => exact kept_insert hT hI hK hrun
  | trackClosed _ hempty => exact kept_trackClosed hempty hc hK
  | dump hrun => exact kept_dump hK hrun hc
  | writerTake | writeRow | flush =>
    exact ⟨hK.inserted, by simp [CsvWriter.writerOpen], hK.queue, hK.dumped, hK.settled⟩
  | flushFailed => cases hc
  | writerClosed _ _ hdone =>
    exact ⟨hK.inserted, fun _ => hdone, hK.queue, hK.dumped, hK.settled⟩
  | _ => exact ⟨hK.inserted, hK.open_, hK.queue, hK.dumped, hK.settled⟩

theorem kept_reachable (h : (lts.guard Careful).Reachable s) (hT : TrackerStream s.sent) :
    Kept s := by
  revert hT
  refine LTS.InductiveOver.reachable (P := fun s => TrackerStream s.sent → Kept s)
    (Q := fun s => lts.Reachable s) ⟨?_, ?_⟩ (fun _ hs => LTS.guard_reachable hs) s h
  · intro s hs _
    rw [hs]
    exact ⟨by simp [CsvWriter.init], by simp [CsvWriter.init, CsvWriter.writerOpen],
      fun _ => rfl, by simp [CsvWriter.init], by simp [CsvWriter.init]⟩
  · intro s l s' hr hK hs hT
    have hT0 := hT.of_isPrefix (step_sent hs.2)
    exact kept_step hs.2 hs.1 (books_reachable hr) hT0 (intact_reachable hr hT0.promised) (hK hT0)

/-! ## From the channel to the file -/

/-- The rows the writer task has taken and not written yet. -/
def CsvWriter.inWriting (s : CsvWriter) : List (List String) :=
  match s.writer with
  | .writing rest => rest
  | _ => []

structure Piped (s : CsvWriter) : Prop where
  rows : s.file ++ s.buffered ++ s.inWriting ++ s.writerChan =
    CSVRecord.fieldNames :: s.rows.map (·.2.asCsvRecord)
  flushed : s.writer = .receiving ∨ s.writer = .closed → s.buffered = []
  closed : s.writer = .closed → s.writerChan = []
  not_failed : s.writer ≠ .failed

/-- The steps of the writer task. -/
def Label.writes : Label → Bool
  | .writerTake | .writeRow _ | .flush _ | .writerClosed => true
  | _ => false

/-- The other tasks only add rows to the channel, and none once it is closed. -/
theorem step_adds (hl : l.writes = false) (h : step s l = some s') :
    s'.file = s.file ∧ s'.buffered = s.buffered ∧ s'.writer = s.writer ∧
      ∃ new : List (Source × CSVRecord), s'.rows = s.rows ++ new ∧
        s'.writerChan = s.writerChan ++ new.map (·.2.asCsvRecord) ∧
        (s.writerOpen = false → new = []) := by
  have key : ∀ source records, ∃ new : List (Source × CSVRecord),
      (s.sendRows source records).rows = s.rows ++ new ∧
      (s.sendRows source records).writerChan =
        s.writerChan ++ new.map (·.2.asCsvRecord) ∧ (s.writerOpen = false → new = []) := by
    intro source records
    refine ⟨if s.writerOpen then records.map (source, ·) else [], rfl, ?_, ?_⟩
    · unfold CsvWriter.sendRows
      split
      · rw [List.map_map]; rfl
      · rfl
    · intro ho
      simp [ho]
  have none_ : ∃ new : List (Source × CSVRecord), s.rows = s.rows ++ new ∧
      s.writerChan = s.writerChan ++ new.map (·.2.asCsvRecord) ∧
      (s.writerOpen = false → new = []) := ⟨[], by simp⟩
  cases step_move h with
  | writerTake | writeRow | flush | flushFailed | writerClosed => simp [Label.writes] at hl
  | join | sweep | dump => exact ⟨rfl, rfl, rfl, key _ _⟩
  | _ => exact ⟨rfl, rfl, rfl, none_⟩

/-- The rows on their way, from the file back to the channel. -/
def CsvWriter.pipe (s : CsvWriter) : List (List String) :=
  s.file ++ s.buffered ++ s.inWriting ++ s.writerChan

/-- Rows move on in order, new ones behind them; only a row that fails to be written is lost. -/
theorem pipe_step (h : step s l = some s') : ∃ new : List (Source × CSVRecord),
    s'.rows = s.rows ++ new ∧ s'.pipe.Sublist (s.pipe ++ new.map (·.2.asCsvRecord)) ∧
      (l ≠ .writeRow false → s'.pipe = s.pipe ++ new.map (·.2.asCsvRecord)) := by
  have moved (hrows : s'.rows = s.rows) (hp : s'.pipe = s.pipe) :
      ∃ new : List (Source × CSVRecord), s'.rows = s.rows ++ new ∧
        s'.pipe.Sublist (s.pipe ++ new.map (·.2.asCsvRecord)) ∧
        (l ≠ .writeRow false → s'.pipe = s.pipe ++ new.map (·.2.asCsvRecord)) := by
    refine ⟨[], by simp [hrows], ?_, fun _ => by simp [hp]⟩
    rw [hp]
    exact List.sublist_append_left _ _
  unfold CsvWriter.pipe at moved ⊢
  rcases Bool.eq_false_or_eq_true l.writes with hl | hl
  · cases step_move h with
    | writerTake hw =>
      apply moved rfl
      simp only [CsvWriter.inWriting, hw, List.append_nil, List.append_assoc,
        List.take_append_drop]
    | @writeRow ok row rest hw =>
      cases ok with
      | true =>
        apply moved rfl
        simp [CsvWriter.inWriting, hw]
      | false =>
        refine ⟨[], by simp, ?_, fun hne => absurd rfl hne⟩
        simp [CsvWriter.inWriting, hw]
    | flush hw =>
      apply moved rfl
      simp [CsvWriter.inWriting, hw]
    | flushFailed hw | writerClosed hw =>
      apply moved rfl
      simp [CsvWriter.inWriting, hw]
    | _ => cases hl
  · obtain ⟨h1, h2, h3, new, h4, h5, -⟩ := step_adds hl h
    have hin : s'.inWriting = s.inWriting := by unfold CsvWriter.inWriting; rw [h3]
    have hp : s'.file ++ s'.buffered ++ s'.inWriting ++ s'.writerChan =
        s.file ++ s.buffered ++ s.inWriting ++ s.writerChan ++ new.map (·.2.asCsvRecord) := by
      rw [h1, h2, hin, h5, List.append_assoc _ s.writerChan]
    exact ⟨new, h4, hp ▸ List.Sublist.refl _, fun _ => hp⟩

theorem piped_step (h : step s l = some s') (hc : Careful s l) (hP : Piped s) : Piped s' := by
  have hrows : s'.pipe = CSVRecord.fieldNames :: s'.rows.map (·.2.asCsvRecord) := by
    obtain ⟨new, hnew, -, hpipe⟩ := pipe_step h
    have hne : l ≠ .writeRow false := by
      intro hl
      subst hl
      cases hc
    rw [hpipe hne, hnew, List.map_append, ← List.cons_append, ← hP.rows]
    rfl
  rcases Bool.eq_false_or_eq_true l.writes with hl | hl
  · cases step_move h with
    | writerTake | writeRow | flush => exact ⟨hrows, by simp, by simp, by simp⟩
    | flushFailed => cases hc
    | writerClosed hw hempty _ =>
      exact ⟨hrows, fun _ => hP.flushed (Or.inl hw), fun _ => hempty, by simp⟩
    | _ => cases hl
  · obtain ⟨-, h2, h3, new, -, h5, h6⟩ := step_adds hl h
    refine ⟨hrows, ?_, ?_, ?_⟩
    · rw [h2, h3]
      exact hP.flushed
    · intro hw
      rw [h3] at hw
      have ho : s.writerOpen = false := by simp [CsvWriter.writerOpen, hw]
      rw [h5, h6 ho, hP.closed hw]
      rfl
    · rw [h3]
      exact hP.not_failed

theorem piped_reachable (h : (lts.guard Careful).Reachable s) : Piped s := by
  refine LTS.Inductive.reachable (P := Piped) ⟨?_, ?_⟩ s h
  · intro s hs
    rw [hs]
    exact ⟨rfl, fun _ => rfl, fun _ => rfl, by simp [CsvWriter.init]⟩
  · intro s l s' hP hs
    exact piped_step hs.2 hs.1 hP

/-- **Nothing lost.** When all four tasks have ended in a run of careful steps, every sent
record has a row with its signature and its id in the file. -/
theorem all_written (h : (lts.guard Careful).Reachable s) (hT : TrackerStream s.sent)
    (hf : s.finished = true) {p : CSVRecord} (hp : p ∈ s.sent) :
    ∃ row ∈ s.file, row[0]? = some p.signature ∧
      row[1]? = some (CSVRecord.numField p.transactionId) := by
  have hr := LTS.guard_reachable h
  have hI := intact_reachable hr hT.promised
  have hK := kept_reachable h hT
  have hP := piped_reachable h
  simp only [CsvWriter.finished, Bool.and_eq_true, Bool.not_eq_true'] at hf
  obtain ⟨⟨⟨hbd, hsd⟩, htd⟩, ho⟩ := hf
  have hin : p ∈ s.inserted := by
    rw [← hI.tracked, hK.queue htd, List.append_nil] at hp
    exact hp
  have hrow : HasRow s p := by
    rcases hK.inserted p hin with hl | hrow
    · obtain ⟨i, hi⟩ := inserted_id hT hI hin
      rw [lookup_of_id hi] at hl
      cases htr : s.track with
      | running => simp [CsvWriter.trackDone, htr] at htd
      | panicked => exact absurd htr hI.track
      | cancelled => exact hK.dumped htr i p hl
      | closed =>
        rw [settled_iff.1 (hK.settled htr hbd hsd) i] at hl
        cases hl
    · exact hrow
  have hw : s.writer = .closed := by
    cases hw : s.writer with
    | receiving | writing => simp [CsvWriter.writerOpen, hw] at ho
    | failed => exact absurd hw hP.not_failed
    | closed => rfl
  have hfile := hP.rows
  rw [hP.flushed (Or.inr hw), hP.closed hw] at hfile
  simp only [CsvWriter.inWriting, hw, List.append_nil] at hfile
  obtain ⟨row, hmem, hsig, hid⟩ := hrow
  refine ⟨row.2.asCsvRecord, ?_, ?_, ?_⟩
  · rw [hfile]
    exact List.mem_cons_of_mem _ (List.mem_map.2 ⟨row, hmem, rfl⟩)
  · rw [CSVRecord.asCsvRecord_signature, hsig]
  · rw [CSVRecord.asCsvRecord_transactionId, hid]

end TpuTools.Writer
