import TpuTools.Core.Ranking
import TpuTools.L3Writer.Ledger

/-!
# How long the CSV writer goes on

The work that is left to the four tasks: a row costs one step to write and one each time it
moves on, so what is further from the file weighs more, and what is pending counts as long as the
tracker task can dump it. The ticker of the sweep is a clock, and what comes in is counted when
it has come.

* `work_lowers`: each step of a task lowers the work that is left.
* `draining_progress`: after the cancellation, there is such a step until all tasks have ended.
-/
namespace TpuTools.Writer

variable {s s' : CsvWriter} {l : Label}

/-- The steps of the four tasks, ticks apart. -/
def Label.drains : Label → Bool
  | .sendTracked _ | .dropTracker | .sendBlock _ | .dropBlock | .cancel | .sweepTick _ => false
  | _ => true

def BlockPc.work : BlockPc → Nat
  | .running rest => 4 * rest.length + 1
  | _ => 0

def WriterPc.work : WriterPc → Nat
  | .receiving => 1
  | .writing rows => rows.length + 2
  | _ => 0

namespace CsvWriter

variable (s : CsvWriter)

def trackWork : Nat :=
  if s.track = .running then 4 * s.trackChan.length + 3 * s.pending.size + 1 else 0

def sweepWork : Nat := if s.sweep = .running then 1 else 0

def work : Nat :=
  5 * s.blockChan.length + s.block.work + s.sweepWork + s.trackWork + 3 * s.writerChan.length +
    s.writer.work

end CsvWriter

/-! ## What lowers it -/

theorem sendRows_length_le (s : CsvWriter) (source : Source) (records : List CSVRecord) :
    (s.sendRows source records).writerChan.length ≤ s.writerChan.length + records.length := by
  unfold CsvWriter.sendRows
  simp only [List.length_append]
  split
  · rw [List.length_map]
  · simp

theorem removeId_size_le (s : CsvWriter) (record : CSVRecord) :
    (s.removeId record).size ≤ s.pending.size := by
  unfold CsvWriter.removeId
  split
  · exact Std.TreeMap.size_erase_le
  · exact Nat.le_refl _

theorem insertAll_size_le : ∀ (l : List CSVRecord) (m : Pending),
    (insertAll m l).1.size ≤ m.size + l.length
  | [], m => Nat.le_refl _
  | record :: rest, m => by
    unfold insertAll
    split
    · exact Nat.le_add_right _ _
    · rename_i id _
      have hone : (m.insert id record).size ≤ m.size + 1 := Std.TreeMap.size_insert_le
      have hrest := insertAll_size_le rest (m.insert id record)
      simp only [List.length_cons]
      omega

/-- `recv_many` takes at least one. -/
theorem take_drop_length {α : Type} {xs : List α} {n : Nat} (hn : 0 < n) (hne : xs ≠ []) :
    (xs.take n).length + (xs.drop n).length = xs.length ∧ 0 < (xs.take n).length := by
  have hpos := List.length_pos_iff.2 hne
  rw [List.length_take, List.length_drop]
  omega

theorem work_join {record : CSVRecord} {rest : List CSVRecord}
    (hb : s.block = .running (record :: rest)) : (s.join record rest).work < s.work := by
  have hrow : (s.join record rest).writerChan.length ≤ s.writerChan.length + 1 :=
    sendRows_length_le _ _ _
  have hsize := removeId_size_le s record
  have htrack : (s.join record rest).trackWork ≤ s.trackWork := by
    show (if s.track = .running then _ else _) ≤ if s.track = .running then _ else _
    split
    · show 4 * s.trackChan.length + 3 * (s.removeId record).size + 1 ≤ _
      omega
    · exact Nat.le_refl _
  have hblock : s.block.work = 4 * (rest.length + 1) + 1 := by
    rw [hb, ← List.length_cons (a := record)]
    rfl
  show 5 * s.blockChan.length + (4 * rest.length + 1) + s.sweepWork +
    (s.join record rest).trackWork + 3 * (s.join record rest).writerChan.length + s.writer.work <
      5 * s.blockChan.length + s.block.work + s.sweepWork + s.trackWork +
        3 * s.writerChan.length + s.writer.work
  omega

theorem work_insert (hrun : s.track = .running) (hne : s.trackChan ≠ []) {t : CsvWriter}
    (hchan : t.trackChan = s.trackChan.drop READ_AT_ONCE)
    (hpending : t.pending = (insertAll s.pending s.group).1) : t.trackWork < s.trackWork := by
  obtain ⟨hlen, hpos⟩ := take_drop_length (n := READ_AT_ONCE) (by decide) hne
  have hsize := insertAll_size_le s.group s.pending
  have hgroup : s.group.length = (s.trackChan.take READ_AT_ONCE).length := rfl
  unfold CsvWriter.trackWork
  rw [if_pos hrun, hchan, hpending]
  split <;> omega

theorem work_dump (hrun : s.track = .running) :
    3 * (s.sendRows .dump (s.pending.toList.map (·.2))).writerChan.length <
      s.trackWork + 3 * s.writerChan.length := by
  have hrows := sendRows_length_le s .dump (s.pending.toList.map (·.2))
  rw [List.length_map, Std.TreeMap.length_toList] at hrows
  unfold CsvWriter.trackWork
  rw [if_pos hrun]
  omega

theorem trackWork_pos (hrun : s.track = .running) : 0 < s.trackWork := by
  unfold CsvWriter.trackWork
  rw [if_pos hrun]
  omega

/-- Each step of a task lowers the work that is left. -/
theorem work_lowers (h : step s l = some s') (hl : l.drains = true) : s'.work < s.work := by
  cases step_move h with
  | sendTracked | dropTracker | sendBlock | dropBlock | cancel | sweepPoisoned | sweep => cases hl
  | blockTake hb =>
    obtain ⟨⟨-, hne⟩, -⟩ := of_guard h
    obtain ⟨hlen, hpos⟩ := take_drop_length (n := READ_AT_ONCE) (by decide) hne
    simp only [CsvWriter.work, CsvWriter.sweepWork, CsvWriter.trackWork, hb, BlockPc.work,
      List.length_nil]
    omega
  | joinPoisoned hb | blockClosed hb | blockCancelled hb =>
    simp only [CsvWriter.work, CsvWriter.sweepWork, CsvWriter.trackWork, hb, BlockPc.work]
    omega
  | join hb => exact work_join hb
  | sweepCancelled hrun =>
    simp only [CsvWriter.work, CsvWriter.sweepWork, CsvWriter.trackWork, hrun, reduceCtorEq,
      if_true, if_false]
    omega
  | insertPoisoned hrun | trackClosed hrun | dumpPoisoned hrun =>
    have hpos := trackWork_pos hrun
    simp only [CsvWriter.work, CsvWriter.sweepWork]
    rw [show CsvWriter.trackWork _ = 0 from rfl]
    omega
  | insert hrun =>
    obtain ⟨⟨-, hne⟩, -⟩ := Option.ite_none_right_eq_some.1 h
    have hlt := work_insert hrun hne (t := { s with
      trackChan := s.trackChan.drop READ_AT_ONCE
      pending := (insertAll s.pending s.group).1
      inserted := s.inserted ++ (insertAll s.pending s.group).2.1
      track := if (insertAll s.pending s.group).2.2 then .panicked else .running
      poisoned := (insertAll s.pending s.group).2.2 }) rfl rfl
    simp only [CsvWriter.work, CsvWriter.sweepWork]
    omega
  | dump hrun =>
    have hlt := work_dump hrun
    show 5 * s.blockChan.length + s.block.work + s.sweepWork + 0 +
      3 * (s.sendRows .dump (s.pending.toList.map (·.2))).writerChan.length + s.writer.work <
        5 * s.blockChan.length + s.block.work + s.sweepWork + s.trackWork +
          3 * s.writerChan.length + s.writer.work
    omega
  | writerTake hw =>
    obtain ⟨⟨-, hne⟩, -⟩ := of_guard h
    obtain ⟨hlen, hpos⟩ := take_drop_length (n := READ_AT_ONCE_FOR_CSV) (by decide) hne
    simp only [CsvWriter.work, CsvWriter.sweepWork, CsvWriter.trackWork, hw, WriterPc.work]
    omega
  | writeRow hw | flush hw | flushFailed hw | writerClosed hw =>
    simp only [CsvWriter.work, CsvWriter.sweepWork, CsvWriter.trackWork, hw, WriterPc.work,
      List.length_cons, List.length_nil]
    omega

theorem drains_blockOpen (h : step s l = some s') (hl : l.drains = true) :
    s'.blockOpen = s.blockOpen := by
  cases step_move h <;> first | rfl | cases hl

/-! ## There is more to do -/

/-- The block task goes on or ends. -/
theorem block_progress (hc : s.cancelled = true) (hb : s.blockDone = false) :
    ∃ l s', l.drains = true ∧ step s l = some s' := by
  cases hpc : s.block with
  | running rest =>
    cases rest with
    | nil => exact ⟨.blockCancelled, _, rfl, if_pos ⟨hpc, hc⟩⟩
    | cons record rest =>
      refine ⟨.blockHandle, if record.transactionId.isSome ∧ s.poisoned then
        { s with block := .panicked } else s.join record rest, rfl, ?_⟩
      simp only [step, CsvWriter.blockHandle, hpc]
      split <;> rfl
  | closed | cancelled | panicked => simp [CsvWriter.blockDone, hpc] at hb

theorem track_progress (hc : s.cancelled = true) (ht : s.trackDone = false) :
    ∃ l s', l.drains = true ∧ step s l = some s' := by
  have hrun : s.track = .running := by simpa [CsvWriter.trackDone] using ht
  refine ⟨.trackCancelled, if s.poisoned then { s with track := .panicked } else
    { s.sendRows .dump (s.pending.toList.map (·.2)) with track := .cancelled }, rfl, ?_⟩
  simp only [step, CsvWriter.trackCancelled, hrun, hc, and_self, if_true]
  split <;> rfl

theorem writer_progress (hb : s.blockDone = true) (hs : s.sweepDone = true)
    (ht : s.trackDone = true) (ho : s.writerOpen = true) :
    ∃ l s', l.drains = true ∧ step s l = some s' := by
  cases hw : s.writer with
  | receiving =>
    by_cases hne : s.writerChan = []
    · exact ⟨.writerClosed, _, rfl, if_pos ⟨hw, hne, hb, hs, ht⟩⟩
    · exact ⟨.writerTake, _, rfl, if_pos ⟨hw, hne⟩⟩
  | writing rows =>
    cases rows with
    | nil =>
      exact ⟨.flush false, { s with writer := .failed }, rfl,
        by simp [step, CsvWriter.flush, hw]⟩
    | cons row rest =>
      exact ⟨.writeRow false, { s with writer := .writing rest }, rfl,
        by simp [step, CsvWriter.writeRow, hw]⟩
  | closed | failed => simp [CsvWriter.writerOpen, hw] at ho

/-- After the cancellation some task can go on until all have ended. -/
theorem draining_progress (hc : s.cancelled = true) (hf : s.finished = false) :
    ∃ l s', l.drains = true ∧ step s l = some s' := by
  by_cases hb : s.blockDone = true
  · by_cases hs : s.sweepDone = true
    · by_cases ht : s.trackDone = true
      · refine writer_progress hb hs ht ?_
        simpa [CsvWriter.finished, hb, hs, ht] using hf
      · exact track_progress hc (Bool.eq_false_iff.2 ht)
    · have hrun : s.sweep = .running := by simpa [CsvWriter.sweepDone] using hs
      exact ⟨.sweepCancelled, _, rfl, if_pos ⟨hrun, hc⟩⟩
  · exact block_progress hc (Bool.eq_false_iff.2 hb)

end TpuTools.Writer
