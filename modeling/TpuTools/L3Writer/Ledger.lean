import TpuTools.L3Writer.CsvWriter

/-!
# The ledger of the CSV writer

What the ghost fields of `CsvWriter` say about the rest. Every invariant is proved from one
inversion of the step function (`step_move`); most of its cases leave the map and the ledger
alone.

* `Move`: the ways each step can go, with what held before it.
* `Books`: a pending entry, a joined entry and a row of the sweep or the dump are inserted
  records, an entry is under its own id, and a row of the block task is a join.
* `Streams`: what is inserted and what is handled came in over the channels, in order, and a
  block task that did not panic has dropped nothing.
* `Intact`: while every sent record has an id and a timestamp, no `unwrap` fails and nothing
  taken from the tracker channel is dropped on the way.
-/
namespace TpuTools.Writer

variable {s s' : CsvWriter} {l : Label}

/-! ## What a step can do -/

/-- The map after a sweep: what it sent is gone, unless an `unwrap` failed. -/
def CsvWriter.swept (s : CsvWriter) (now : Nat) : Pending :=
  if (s.overAge now).2 then s.pending
  else ((s.overAge now).1.map (·.1)).foldl (·.erase ·) s.pending

/-- The ways each step can go, with what held before it. -/
inductive Move (s : CsvWriter) : Label → CsvWriter → Prop where
  | sendTracked {record : CSVRecord} (hopen : s.trackOpen = true) (hrun : s.track = .running) :
      Move s (.sendTracked record)
        { s with trackChan := s.trackChan ++ [record], sent := s.sent ++ [record] }
  | dropTracker : Move s .dropTracker { s with trackOpen := false }
  | sendBlock {record : CSVRecord} (hopen : s.blockOpen = true) (hrun : s.blockDone = false) :
      Move s (.sendBlock record)
        { s with blockChan := s.blockChan ++ [record], received := s.received ++ [record] }
  | dropBlock : Move s .dropBlock { s with blockOpen := false }
  | cancel : Move s .cancel { s with cancelled := true }
  | blockTake (hb : s.block = .running []) : Move s .blockTake { s with
      block := .running (s.blockChan.take READ_AT_ONCE)
      blockChan := s.blockChan.drop READ_AT_ONCE }
  | joinPoisoned {record : CSVRecord} {rest : List CSVRecord}
      (hb : s.block = .running (record :: rest)) (hp : s.poisoned = true) :
      Move s .blockHandle { s with block := .panicked }
  | join {record : CSVRecord} {rest : List CSVRecord}
      (hb : s.block = .running (record :: rest)) : Move s .blockHandle (s.join record rest)
  | blockClosed (hb : s.block = .running []) : Move s .blockClosed { s with block := .closed }
  | blockCancelled (hb : s.block = .running []) :
      Move s .blockCancelled { s with block := .cancelled }
  | sweepPoisoned {now : Nat} (hrun : s.sweep = .running) (hp : s.poisoned = true) :
      Move s (.sweepTick now) { s with sweep := .panicked }
  | sweep {now : Nat} (hrun : s.sweep = .running) (hp : s.poisoned = false) :
      Move s (.sweepTick now) { s.sendRows .sweep ((s.overAge now).1.map (·.2)) with
        pending := s.swept now
        sweep := if (s.overAge now).2 then .panicked else .running
        poisoned := (s.overAge now).2 }
  | sweepCancelled (hrun : s.sweep = .running) :
      Move s .sweepCancelled { s with sweep := .cancelled }
  | insertPoisoned (hrun : s.track = .running) (hp : s.poisoned = true) :
      Move s .trackInsert
        { s with trackChan := s.trackChan.drop READ_AT_ONCE, track := .panicked }
  | insert (hrun : s.track = .running) (hp : s.poisoned = false) : Move s .trackInsert { s with
      trackChan := s.trackChan.drop READ_AT_ONCE
      pending := (insertAll s.pending s.group).1
      inserted := s.inserted ++ (insertAll s.pending s.group).2.1
      track := if (insertAll s.pending s.group).2.2 then .panicked else .running
      poisoned := (insertAll s.pending s.group).2.2 }
  | trackClosed (hrun : s.track = .running) (hc : s.trackChan = []) :
      Move s .trackClosed { s with track := .closed }
  | dumpPoisoned (hrun : s.track = .running) (hp : s.poisoned = true) :
      Move s .trackCancelled { s with track := .panicked }
  | dump (hrun : s.track = .running) (hc : s.cancelled = true) (hp : s.poisoned = false) :
      Move s .trackCancelled
        { s.sendRows .dump (s.pending.toList.map (·.2)) with track := .cancelled }
  | writerTake (hw : s.writer = .receiving) : Move s .writerTake { s with
      writer := .writing (s.writerChan.take READ_AT_ONCE_FOR_CSV)
      writerChan := s.writerChan.drop READ_AT_ONCE_FOR_CSV }
  | writeRow {ok : Bool} {row : List String} {rest : List (List String)}
      (hw : s.writer = .writing (row :: rest)) : Move s (.writeRow ok) { s with
        writer := .writing rest
        buffered := if ok then s.buffered ++ [row] else s.buffered }
  | flush (hw : s.writer = .writing []) : Move s (.flush true)
      { s with writer := .receiving, file := s.file ++ s.buffered, buffered := [] }
  | flushFailed (hw : s.writer = .writing []) : Move s (.flush false) { s with writer := .failed }
  | writerClosed (hw : s.writer = .receiving) (hc : s.writerChan = [])
      (hdone : s.blockDone = true ∧ s.sweepDone = true ∧ s.trackDone = true) :
      Move s .writerClosed { s with writer := .closed }

theorem step_blockHandle (h : step s .blockHandle = some s') : Move s .blockHandle s' := by
  simp only [step, CsvWriter.blockHandle] at h
  split at h
  · rename_i record rest hb
    split at h
    · rename_i hp
      cases h
      exact .joinPoisoned hb hp.2
    · cases h
      exact .join hb
  · cases h

theorem step_sweepTick {now : Nat} (h : step s (.sweepTick now) = some s') :
    Move s (.sweepTick now) s' := by
  simp only [step, CsvWriter.sweepTick] at h
  split at h
  · rename_i hrun
    split at h
    · rename_i hp
      cases h
      exact .sweepPoisoned hrun hp
    · rename_i hp
      have hmove : Move s (.sweepTick now) _ := .sweep hrun ((Bool.not_eq_true _).mp hp)
      unfold CsvWriter.swept at hmove
      split at h
      · rename_i ho
        cases h
        simpa [ho, CsvWriter.sendRows] using hmove
      · rename_i ho
        cases h
        simpa [ho, hp, hrun, CsvWriter.sendRows] using hmove
  · cases h

theorem step_trackInsert (h : step s .trackInsert = some s') : Move s .trackInsert s' := by
  simp only [step, CsvWriter.trackInsert] at h
  split at h
  · rename_i hrun
    split at h
    · rename_i hp
      cases h
      exact .insertPoisoned hrun.1 hp
    · rename_i hp
      cases h
      exact .insert hrun.1 ((Bool.not_eq_true _).mp hp)
  · cases h

theorem step_trackCancelled (h : step s .trackCancelled = some s') :
    Move s .trackCancelled s' := by
  simp only [step, CsvWriter.trackCancelled] at h
  split at h
  · rename_i hrun
    split at h
    · rename_i hp
      cases h
      exact .dumpPoisoned hrun.1 hp
    · rename_i hp
      cases h
      exact .dump hrun.1 hrun.2 ((Bool.not_eq_true _).mp hp)
  · cases h

theorem step_flush {ok : Bool} (h : step s (.flush ok) = some s') : Move s (.flush ok) s' := by
  simp only [step, CsvWriter.flush] at h
  split at h
  · rename_i hw
    cases ok with
    | true => cases h; exact .flush hw
    | false => cases h; exact .flushFailed hw
  · cases h

theorem of_guard {c : Prop} [Decidable c] {a b : CsvWriter}
    (h : (if c then some a else none) = some b) : c ∧ b = a := by
  obtain ⟨hc, he⟩ := Option.ite_none_right_eq_some.1 h
  exact ⟨hc, (Option.some.inj he).symm⟩

/-- Every step goes one of these ways. -/
theorem step_move (h : step s l = some s') : Move s l s' := by
  cases l with
  | blockHandle => exact step_blockHandle h
  | sweepTick now => exact step_sweepTick h
  | trackInsert => exact step_trackInsert h
  | trackCancelled => exact step_trackCancelled h
  | flush ok => exact step_flush h
  | dropTracker => cases h; exact .dropTracker
  | dropBlock => cases h; exact .dropBlock
  | cancel => cases h; exact .cancel
  | writeRow ok =>
    simp only [step, CsvWriter.writeRow] at h
    split at h
    · rename_i hw
      cases h
      exact .writeRow hw
    · cases h
  | sendTracked record =>
    obtain ⟨hs, rfl⟩ := of_guard h
    exact .sendTracked hs.1 hs.2
  | sendBlock record =>
    obtain ⟨hs, rfl⟩ := of_guard h
    exact .sendBlock hs.1 ((Bool.not_eq_true _).mp hs.2.1)
  | blockTake =>
    obtain ⟨hs, rfl⟩ := of_guard h
    exact .blockTake hs.1
  | blockClosed =>
    obtain ⟨hs, rfl⟩ := of_guard h
    exact .blockClosed hs.1
  | blockCancelled =>
    obtain ⟨hs, rfl⟩ := of_guard h
    exact .blockCancelled hs.1
  | sweepCancelled =>
    obtain ⟨hs, rfl⟩ := of_guard h
    exact .sweepCancelled hs.1
  | trackClosed =>
    obtain ⟨hs, rfl⟩ := of_guard h
    exact .trackClosed hs.1 hs.2.1
  | writerTake =>
    obtain ⟨hs, rfl⟩ := of_guard h
    exact .writerTake hs.1
  | writerClosed =>
    obtain ⟨hs, rfl⟩ := of_guard h
    exact .writerClosed hs.1 hs.2.1 hs.2.2

/-! ## Books -/

structure Books (s : CsvWriter) : Prop where
  pending_own : ∀ i p, s.pending[i]? = some p → p ∈ s.inserted ∧ p.transactionId = some i
  joined_own : ∀ r p, (r, some p) ∈ s.joined → p ∈ s.inserted ∧
    p.transactionId.isSome = true ∧ r.transactionId = p.transactionId
  block_row : ∀ x, (Source.block, x) ∈ s.rows → ∃ j ∈ s.joined, x = joinRow j.1 j.2
  other_row : ∀ source x, (source, x) ∈ s.rows → source ≠ .block → x ∈ s.inserted

theorem Books.entry {i : Nat} {p : CSVRecord} (hB : Books s) (h : (i, p) ∈ s.pending.toList) :
    p ∈ s.inserted ∧ p.transactionId = some i :=
  hB.pending_own i p (mem_entries.1 h)

/-- What a sweep sends was pending. -/
theorem overAge_mem {now i : Nat} {p : CSVRecord} (h : (i, p) ∈ (s.overAge now).1) :
    s.pending[i]? = some p :=
  mem_entries.1 ((sweepLoop_isPrefix _ now _).subset h)

/-- A sweep removes what it sent and nothing else. -/
theorem swept_get (now i : Nat) (hp : (s.overAge now).2 = false) :
    (s.swept now)[i]? = if i ∈ (s.overAge now).1.map (·.1) then none else s.pending[i]? := by
  unfold CsvWriter.swept
  rw [hp, if_neg (by simp), getElem?_erase_ids]

theorem swept_sub {now i : Nat} {p : CSVRecord} (h : (s.swept now)[i]? = some p) :
    s.pending[i]? = some p := by
  unfold CsvWriter.swept at h
  split at h
  · exact h
  · rw [getElem?_erase_ids] at h
    split at h
    · cases h
    · exact h

/-- A join removes the entry under its id and nothing else. -/
theorem removeId_get (record : CSVRecord) (i : Nat) :
    (s.removeId record)[i]? = if record.transactionId = some i then none else s.pending[i]? := by
  unfold CsvWriter.removeId
  cases hid : record.transactionId with
  | none => simp
  | some id => simp only [get_erase, Option.some.injEq]

theorem lookup_eq_some {record p : CSVRecord} :
    s.lookup record = some p ↔ ∃ i, record.transactionId = some i ∧ s.pending[i]? = some p := by
  unfold CsvWriter.lookup
  rw [Option.bind_eq_some_iff]

theorem books_init : Books .init where
  pending_own := by simp [CsvWriter.init]
  joined_own := by simp [CsvWriter.init]
  block_row := by simp [CsvWriter.init]
  other_row := by simp [CsvWriter.init]

theorem mem_sent_rows {source source' : Source} {records : List CSVRecord} {x : CSVRecord}
    (h : (source', x) ∈ (s.sendRows source records).rows) :
    (source', x) ∈ s.rows ∨ (source' = source ∧ x ∈ records) := by
  simp only [CsvWriter.sendRows, List.mem_append] at h
  rcases h with h | h
  · exact Or.inl h
  · split at h
    · obtain ⟨y, hy, he⟩ := List.mem_map.1 h
      cases he
      exact Or.inr ⟨rfl, hy⟩
    · simp at h

theorem books_join (record : CSVRecord) (rest : List CSVRecord) (hB : Books s) :
    Books (s.join record rest) where
  pending_own := by
    intro i p h
    have h' : (s.removeId record)[i]? = some p := h
    rw [removeId_get] at h'
    split at h'
    · cases h'
    · exact hB.pending_own i p h'
  joined_own := by
    intro r p h
    rcases List.mem_append.1 h with h | h
    · exact hB.joined_own r p h
    · simp only [List.mem_singleton, Prod.mk.injEq] at h
      obtain ⟨rfl, hl⟩ := h
      obtain ⟨i, hi, hp⟩ := lookup_eq_some.1 hl.symm
      obtain ⟨h1, h2⟩ := hB.pending_own i p hp
      exact ⟨h1, by rw [h2]; rfl, by rw [hi, h2]⟩
  block_row := by
    intro x h
    rcases mem_sent_rows h with h | ⟨-, h⟩
    · obtain ⟨j, hj, hx⟩ := hB.block_row x h
      exact ⟨j, List.mem_append_left _ hj, hx⟩
    · exact ⟨(record, s.lookup record), List.mem_append_right _ (List.mem_singleton.2 rfl),
        List.mem_singleton.1 h⟩
  other_row := by
    intro source x h hne
    rcases mem_sent_rows h with h | ⟨h, -⟩
    · exact hB.other_row source x h hne
    · exact absurd h hne

/-- Inserted records, sent by another task than the block task, keep the rows in order. -/
theorem books_rows (source : Source) (hne : source ≠ .block) {records : List CSVRecord}
    (hin : ∀ x ∈ records, x ∈ s.inserted) (hB : Books s) :
    (∀ x, (Source.block, x) ∈ (s.sendRows source records).rows →
      ∃ j ∈ s.joined, x = joinRow j.1 j.2) ∧
    (∀ source' x, (source', x) ∈ (s.sendRows source records).rows → source' ≠ .block →
      x ∈ s.inserted) := by
  constructor
  · intro x hx
    rcases mem_sent_rows hx with hx | ⟨hs, -⟩
    · exact hB.block_row x hx
    · exact absurd hs.symm hne
  · intro source' x hx hne'
    rcases mem_sent_rows hx with hx | ⟨-, hx⟩
    · exact hB.other_row source' x hx hne'
    · exact hin x hx

theorem books_step (h : step s l = some s') (hB : Books s) : Books s' := by
  cases step_move h with
  | join => exact books_join _ _ hB
  | @sweep now =>
    have hin : ∀ x ∈ (s.overAge now).1.map (·.2), x ∈ s.inserted := by
      intro x hx
      obtain ⟨e, he, rfl⟩ := List.mem_map.1 hx
      exact (hB.pending_own e.1 e.2 (overAge_mem he)).1
    obtain ⟨hblock, hother⟩ := books_rows .sweep (by decide) hin hB
    exact ⟨fun i p hp => hB.pending_own i p (swept_sub hp), hB.joined_own, hblock, hother⟩
  | insert =>
    refine ⟨?_, ?_, hB.block_row, ?_⟩
    · intro i p hp
      rcases insertAll_mem _ _ hp with ⟨h1, h2⟩ | h1
      · exact ⟨List.mem_append_right _ h1, h2⟩
      · obtain ⟨h2, h3⟩ := hB.pending_own i p h1
        exact ⟨List.mem_append_left _ h2, h3⟩
    · intro r p hp
      obtain ⟨h1, h2⟩ := hB.joined_own r p hp
      exact ⟨List.mem_append_left _ h1, h2⟩
    · intro source x hx hne
      exact List.mem_append_left _ (hB.other_row source x hx hne)
  | dump =>
    have hin : ∀ x ∈ s.pending.toList.map (·.2), x ∈ s.inserted := by
      intro x hx
      obtain ⟨e, he, rfl⟩ := List.mem_map.1 hx
      exact (hB.entry he).1
    obtain ⟨hblock, hother⟩ := books_rows .dump (by decide) hin hB
    exact ⟨hB.pending_own, hB.joined_own, hblock, hother⟩
  -- the other steps leave the books alone
  | _ => exact ⟨hB.pending_own, hB.joined_own, hB.block_row, hB.other_row⟩

/-- In every reachable state the books are in order. -/
theorem books_reachable (h : lts.Reachable s) : Books s := by
  refine LTS.Inductive.reachable (P := Books) ⟨?_, ?_⟩ s h
  · intro s hs
    rw [hs]
    exact books_init
  · intro s l s' hB hs
    exact books_step hs hB

/-! ## Streams -/

/-- The block records taken in a batch and not handled yet. -/
def CsvWriter.inHand (s : CsvWriter) : List CSVRecord :=
  match s.block with
  | .running rest => rest
  | _ => []

structure Streams (s : CsvWriter) : Prop where
  tracked : (s.inserted ++ s.trackChan).Sublist s.sent
  blocks : (s.joined.map (·.1) ++ s.inHand ++ s.blockChan).Sublist s.received
  taken : s.block ≠ .panicked → s.joined.map (·.1) ++ s.inHand ++ s.blockChan = s.received

theorem join_streams {record : CSVRecord} {rest : List CSVRecord}
    (hb : s.block = .running (record :: rest)) :
    (s.join record rest).joined.map (·.1) ++ (s.join record rest).inHand =
      s.joined.map (·.1) ++ s.inHand := by
  simp [CsvWriter.join, CsvWriter.sendRows, CsvWriter.inHand, hb]

/-- A batch is a part of the channel, in order. -/
theorem blockTake_streams (hb : s.block = .running []) :
    s.blockChan.take READ_AT_ONCE ++ s.blockChan.drop READ_AT_ONCE = s.inHand ++ s.blockChan := by
  simp [CsvWriter.inHand, hb]

/-- A block task that ends with no record in hand. -/
theorem inHand_of_running_nil (hb : s.block = .running []) : s.inHand = [] := by
  simp [CsvWriter.inHand, hb]

theorem streams_step (h : step s l = some s') (hS : Streams s) : Streams s' := by
  cases step_move h with
  | sendTracked =>
    refine ⟨?_, hS.blocks, hS.taken⟩
    simp only [← List.append_assoc]
    exact hS.tracked.append (List.Sublist.refl _)
  | @sendBlock record =>
    have hh : CsvWriter.inHand { s with
        blockChan := s.blockChan ++ [record], received := s.received ++ [record] } = s.inHand := rfl
    refine ⟨hS.tracked, ?_, fun hb => ?_⟩
    · simp only [hh, ← List.append_assoc]
      exact hS.blocks.append (List.Sublist.refl _)
    · rw [hh, ← hS.taken hb]
      exact (List.append_assoc _ _ _).symm
  | blockTake hb =>
    have hblocks := hS.taken (by simp [hb])
    rw [List.append_assoc, ← blockTake_streams hb, ← List.append_assoc] at hblocks
    exact ⟨hS.tracked, hblocks ▸ List.Sublist.refl _, fun _ => hblocks⟩
  | joinPoisoned hb _ =>
    refine ⟨hS.tracked, List.Sublist.trans ?_ hS.blocks, fun hb => absurd rfl hb⟩
    simp only [CsvWriter.inHand, hb, List.append_nil]
    exact (List.sublist_append_left _ _).append (List.Sublist.refl _)
  | join hb =>
    have hblocks := hS.taken (by simp [hb])
    rw [← join_streams hb] at hblocks
    exact ⟨hS.tracked, hblocks ▸ List.Sublist.refl _, fun _ => hblocks⟩
  | blockClosed hb | blockCancelled hb =>
    have hblocks := hS.taken (by simp [hb])
    rw [inHand_of_running_nil hb] at hblocks
    exact ⟨hS.tracked, hblocks ▸ List.Sublist.refl _, fun _ => hblocks⟩
  | insertPoisoned =>
    refine ⟨List.Sublist.trans ?_ hS.tracked, hS.blocks, hS.taken⟩
    exact (List.Sublist.refl _).append (List.drop_sublist _ _)
  | insert =>
    refine ⟨List.Sublist.trans ?_ hS.tracked, hS.blocks, hS.taken⟩
    have hd : s.group ++ s.trackChan.drop READ_AT_ONCE = s.trackChan :=
      List.take_append_drop _ _
    simp only [List.append_assoc]
    refine (List.Sublist.refl _).append ?_
    rw [← hd]
    exact (insertAll_isPrefix _ _).sublist.append (by rw [hd])
  | _ => exact ⟨hS.tracked, hS.blocks, hS.taken⟩

theorem streams_reachable (h : lts.Reachable s) : Streams s := by
  refine LTS.Inductive.reachable (P := Streams) ⟨?_, ?_⟩ s h
  · intro s hs
    rw [hs]
    exact ⟨by simp [CsvWriter.init], by simp [CsvWriter.init, CsvWriter.inHand], fun _ => rfl⟩
  · intro s l s' hS hs
    exact streams_step hs hS

/-! ## No panics -/

/-- What the sender promises of every record: an id and a sending time. -/
def Promised (records : List CSVRecord) : Prop :=
  ∀ p ∈ records, p.transactionId.isSome = true ∧ p.sentTimestamp.isSome = true

structure Intact (s : CsvWriter) : Prop where
  poisoned : s.poisoned = false
  block : s.block ≠ .panicked
  sweep : s.sweep ≠ .panicked
  track : s.track ≠ .panicked
  tracked : s.inserted ++ s.trackChan = s.sent

/-- What a step adds to the tracker channel. -/
def Label.sends : Label → List CSVRecord
  | .sendTracked record => [record]
  | _ => []

/-- What a step adds to the block channel. -/
def Label.receives : Label → List CSVRecord
  | .sendBlock record => [record]
  | _ => []

/-- The histories of the two input channels only grow, by the sends. -/
theorem step_channels (h : step s l = some s') :
    s'.sent = s.sent ++ l.sends ∧ s'.received = s.received ++ l.receives := by
  cases step_move h with
  | sendTracked => exact ⟨rfl, (List.append_nil _).symm⟩
  | sendBlock => exact ⟨(List.append_nil _).symm, rfl⟩
  | _ => exact ⟨(List.append_nil _).symm, (List.append_nil _).symm⟩

theorem step_sent (h : step s l = some s') : s.sent <+: s'.sent :=
  ⟨_, (step_channels h).1.symm⟩

theorem step_received (h : step s l = some s') : s.received <+: s'.received :=
  ⟨_, (step_channels h).2.symm⟩

theorem overAge_ok (now : Nat) (hB : Books s) (hP : Promised s.inserted) :
    (s.overAge now).2 = false := by
  by_contra hp
  simp only [Bool.not_eq_false] at hp
  obtain ⟨e, he, hts⟩ := sweepLoop_panic hp
  have h := (hP e.2 (hB.entry (i := e.1) he).1).2
  rw [hts] at h
  cases h

theorem intact_step (h : step s l = some s') (hB : Books s) (hP : Promised s'.sent)
    (hI : Intact s) : Intact s' := by
  have hP0 : Promised s.sent := fun p hp => hP p ((step_sent h).subset hp)
  have hPi : Promised s.inserted := fun p hp => hP0 p (hI.tracked ▸ List.mem_append_left _ hp)
  cases step_move h with
  | sendTracked =>
    refine ⟨hI.poisoned, hI.block, hI.sweep, hI.track, ?_⟩
    rw [← List.append_assoc, hI.tracked]
  | blockTake | blockClosed | blockCancelled =>
    exact ⟨hI.poisoned, by simp, hI.sweep, hI.track, hI.tracked⟩
  | join =>
    exact ⟨hI.poisoned, by simp [CsvWriter.join, CsvWriter.sendRows], hI.sweep, hI.track,
      hI.tracked⟩
  | joinPoisoned _ hp | sweepPoisoned _ hp | insertPoisoned _ hp | dumpPoisoned _ hp =>
    rw [hI.poisoned] at hp
    cases hp
  | @sweep now =>
    have hok := overAge_ok now hB hPi
    exact ⟨hok, hI.block, by simp [hok], hI.track, hI.tracked⟩
  | insert =>
    have hg : ∀ p ∈ s.group, p.transactionId.isSome = true := by
      intro p hp
      exact (hP0 p (hI.tracked ▸ List.mem_append_right _ (List.mem_of_mem_take hp))).1
    obtain ⟨h1, h2⟩ := insertAll_ok s.group s.pending hg
    refine ⟨h2, hI.block, hI.sweep, by simp [h2], ?_⟩
    simp only [h1, List.append_assoc]
    rw [CsvWriter.group, List.take_append_drop]
    exact hI.tracked
  | sweepCancelled =>
    exact ⟨hI.poisoned, hI.block, by simp, hI.track, hI.tracked⟩
  | trackClosed | dump =>
    exact ⟨hI.poisoned, hI.block, hI.sweep, by simp, hI.tracked⟩
  | _ => exact ⟨hI.poisoned, hI.block, hI.sweep, hI.track, hI.tracked⟩

/-- **No unwrap fails**, and nothing is lost between the tracker channel and the map, as long as
every record sent so far has an id and a sending time. -/
theorem intact_reachable (h : lts.Reachable s) (hP : Promised s.sent) : Intact s := by
  revert hP
  refine LTS.InductiveOver.reachable (P := fun s => Promised s.sent → Intact s)
    (Q := Books) ⟨?_, ?_⟩ (fun _ => books_reachable) s h
  · intro s hs _
    rw [hs]
    exact ⟨rfl, by simp [CsvWriter.init], by simp [CsvWriter.init], by simp [CsvWriter.init],
      rfl⟩
  · intro s l s' hB hI hs hP
    exact intact_step hs hB hP (hI fun p hp => hP p ((step_sent hs).subset hp))

/-! ## Records for example runs -/

/-- A sent record, as the tracker channel carries it. -/
def tracked (id ts : Nat) (signature : String) : CSVRecord :=
  ⟨signature, some id, some 1, none, some ts, none, none, none, [(.sent, "leader")], none,
    some "TargetTpu", none⟩

/-- A block record of the transaction `id`. -/
def reported (id : Nat) (signature : String) : CSVRecord :=
  ⟨signature, some id, some 1, some 2, some 5, some 6, none, some 0, [], some 3,
    some "TargetTpu", some 1⟩

end TpuTools.Writer
