import Mathlib.Data.List.Count
import Mathlib.Data.List.Nodup
import Mathlib.Data.Option.Basic
import TpuTools.L3Writer.Ledger

/-!
# Conservation in the CSV writer

Before cancellation, while the writer channel is open, and when the sender numbers its
records with distinct ids, every sent record the tracker task took is in exactly one place:
pending under its id, written by the sweep, or consumed by one block record. Every handled
block record has exactly one row, in arrival order.

* `Placed`: the inductive part; `placed_join`, `placed_sweep`, `placed_insert` are its steps.
* `conservation`: all of it, for every reachable state.
-/
namespace TpuTools.Writer

variable {s s' : CsvWriter} {l : Label}

/-- What the tracker channel carries: records with ids, all distinct, and sending times. -/
structure TrackerStream (records : List CSVRecord) : Prop where
  promised : Promised records
  ids : (records.map (·.transactionId)).Nodup

theorem TrackerStream.of_isPrefix {a b : List CSVRecord} (h : TrackerStream b) (hp : a <+: b) :
    TrackerStream a where
  promised p hpa := h.promised p (hp.subset hpa)
  ids := h.ids.sublist (hp.sublist.map _)

theorem TrackerStream.eq_of_id {records : List CSVRecord} {p q : CSVRecord}
    (h : TrackerStream records) (hp : p ∈ records) (hq : q ∈ records)
    (he : p.transactionId = q.transactionId) : p = q :=
  List.inj_on_of_nodup_map h.ids hp hq he

/-- The number of places of a record that was taken from the tracker channel. -/
def places (s : CsvWriter) (p : CSVRecord) : Nat :=
  (if s.lookup p = some p then 1 else 0) + s.rows.count (.sweep, p) +
    s.joined.countP fun j => j.2 = some p

/-- The rows of the block task. -/
def blockRows (s : CsvWriter) : List CSVRecord :=
  s.rows.filterMap fun row => if row.1 = .block then some row.2 else none

structure Placed (s : CsvWriter) : Prop where
  place : ∀ p ∈ s.inserted, places s p = 1
  block_rows : blockRows s = s.joined.map fun j => joinRow j.1 j.2
  no_dump : ∀ x, (Source.dump, x) ∉ s.rows

/-- The writer channel never reopens and a cancellation is never taken back. -/
theorem step_mono (h : step s l = some s') :
    (s'.cancelled = false → s.cancelled = false) ∧
      (s'.writerOpen = true → s.writerOpen = true) := by
  cases step_move h with
  | cancel => exact ⟨fun hc => Bool.noConfusion hc, id⟩
  | writerTake hw | writeRow hw | flush hw | flushFailed hw | writerClosed hw =>
    exact ⟨id, fun _ => by simp [CsvWriter.writerOpen, hw]⟩
  | _ => exact ⟨id, id⟩

theorem sendRows_rows (source : Source) (records : List CSVRecord) (ho : s.writerOpen = true) :
    (s.sendRows source records).rows = s.rows ++ records.map (source, ·) := by
  simp [CsvWriter.sendRows, ho]

theorem count_sweep_map (p : CSVRecord) (records : List CSVRecord) :
    (records.map (Source.sweep, ·)).count (Source.sweep, p) = records.count p :=
  List.count_map_of_injective records _ (fun _ _ h => (Prod.mk.inj h).2) p

theorem blockRows_sendRows (source : Source) (records : List CSVRecord)
    (ho : s.writerOpen = true) : blockRows (s.sendRows source records) =
      blockRows s ++ if source = .block then records else [] := by
  unfold blockRows
  rw [sendRows_rows source records ho, List.filterMap_append, List.filterMap_map]
  by_cases hsource : source = .block <;> simp [hsource]

theorem no_dump_sendRows {source : Source} {records : List CSVRecord} (hne : source ≠ .dump)
    (h : ∀ x, (Source.dump, x) ∉ s.rows) :
    ∀ x, (Source.dump, x) ∉ (s.sendRows source records).rows := by
  intro x hx
  rcases mem_sent_rows hx with hx | ⟨hs, -⟩
  · exact h x hx
  · exact hne hs.symm

/-! ## The three steps -/

/-- Under distinct ids a lookup by id finds the record itself or nothing. -/
theorem lookup_own (hB : Books s) (hT : TrackerStream s.sent) (hI : Intact s) {r p q : CSVRecord}
    (hp : p ∈ s.inserted) (hr : r.transactionId = p.transactionId) (hl : s.lookup r = some q) :
    q = p := by
  obtain ⟨i, hi, hq⟩ := lookup_eq_some.1 hl
  obtain ⟨hq1, hq2⟩ := hB.pending_own i q hq
  have hmem : ∀ x ∈ s.inserted, x ∈ s.sent := fun x hx => hI.tracked ▸ List.mem_append_left _ hx
  exact hT.eq_of_id (hmem q hq1) (hmem p hp) (by rw [hq2, ← hi, hr])

theorem placed_join {record : CSVRecord} {rest : List CSVRecord} (ho : s.writerOpen = true)
    (hB : Books s) (hT : TrackerStream s.sent) (hI : Intact s) (hP : Placed s) :
    Placed (s.join record rest) := by
  have hrows : (s.join record rest).rows =
      s.rows ++ [(Source.block, joinRow record (s.lookup record))] := sendRows_rows _ _ ho
  refine ⟨?_, ?_, ?_⟩
  · intro p hp
    have hp' : p ∈ s.inserted := hp
    obtain ⟨i, hi⟩ := Option.isSome_iff_exists.1
      (hT.promised p (hI.tracked ▸ List.mem_append_left _ hp')).1
    have hplace := hP.place p hp'
    have hcount : (s.join record rest).rows.count (.sweep, p) = s.rows.count (.sweep, p) := by
      rw [hrows, List.count_append]
      simp
    have hjoin : (s.join record rest).joined.countP (fun j => j.2 = some p) =
        s.joined.countP (fun j => j.2 = some p) + if s.lookup record = some p then 1 else 0 := by
      simp [CsvWriter.join, CsvWriter.sendRows, List.countP_append, List.countP_cons]
    have hlook : (s.join record rest).lookup p =
        if record.transactionId = some i then none else s.lookup p := by
      have hl : (s.join record rest).lookup p = (s.removeId record)[i]? := by
        simp [CsvWriter.lookup, hi, CsvWriter.join, CsvWriter.sendRows]
      rw [hl, removeId_get]
      simp [CsvWriter.lookup, hi]
    unfold places at hplace ⊢
    rw [hcount, hjoin, hlook]
    by_cases hr : record.transactionId = some i
    · -- the record has the id of `p`: what it finds is `p`, or nothing
      have hsame : s.lookup record = s.lookup p := by simp [CsvWriter.lookup, hr, hi]
      rw [if_pos hr, hsame]
      simp only [reduceCtorEq, if_false]
      omega
    · have hne : s.lookup record ≠ some p := by
        intro hl
        obtain ⟨j, hj, hq⟩ := lookup_eq_some.1 hl
        rw [(hB.pending_own j p hq).2] at hi
        exact hr (hj.trans hi)
      rw [if_neg hr, if_neg hne]
      omega
  · have hsent : blockRows (s.join record rest) =
        blockRows s ++ [joinRow record (s.lookup record)] := blockRows_sendRows .block _ ho
    rw [hsent, hP.block_rows]
    simp [CsvWriter.join, CsvWriter.sendRows]
  · exact no_dump_sendRows (by decide) hP.no_dump

/-- The entries a sweep sends are distinct records. -/
theorem overAge_nodup (hB : Books s) (now : Nat) : ((s.overAge now).1.map (·.2)).Nodup := by
  have hkeys : ((s.overAge now).1.map (·.1)).Nodup :=
    (entries_keys_nodup s.pending).sublist ((sweepLoop_isPrefix _ _ _).sublist.map _)
  refine List.Nodup.of_map (·.transactionId) ?_
  rw [List.map_map]
  have hid : (s.overAge now).1.map ((fun p : CSVRecord => p.transactionId) ∘ fun e => e.2) =
      ((s.overAge now).1.map (·.1)).map some := by
    rw [List.map_map]
    refine List.map_congr_left fun e he => ?_
    exact (hB.pending_own e.1 e.2 (overAge_mem he)).2
  rw [hid]
  exact hkeys.map (Option.some_injective _)

theorem placed_sweep {now : Nat} (ho : s.writerOpen = true) (hok : (s.overAge now).2 = false)
    (hB : Books s) (hT : TrackerStream s.sent) (hI : Intact s) (hP : Placed s) :
    Placed { s.sendRows .sweep ((s.overAge now).1.map (·.2)) with
      pending := s.swept now
      sweep := if (s.overAge now).2 then .panicked else .running
      poisoned := (s.overAge now).2 } := by
  have hrows := sendRows_rows .sweep ((s.overAge now).1.map (·.2)) ho
  refine ⟨?_, ?_, ?_⟩
  · intro p hp
    have hp' : p ∈ s.inserted := hp
    obtain ⟨i, hi⟩ := Option.isSome_iff_exists.1
      (hT.promised p (hI.tracked ▸ List.mem_append_left _ hp')).1
    have hplace := hP.place p hp'
    have hlook : ∀ m : Pending, p.transactionId.bind (m[·]?) = m[i]? := by
      intro m; rw [hi]; rfl
    unfold places CsvWriter.lookup at hplace ⊢
    simp only [hlook] at hplace ⊢
    rw [swept_get now i hok, hrows, List.count_append, count_sweep_map]
    have hjoin : (s.sendRows .sweep ((s.overAge now).1.map (·.2))).joined = s.joined := rfl
    rw [hjoin]
    -- `p` is sent exactly when its id is among the removed ones
    by_cases hmem : i ∈ (s.overAge now).1.map (·.1)
    · obtain ⟨e, he, rfl⟩ := List.mem_map.1 hmem
      have hq := overAge_mem he
      have hep : e.2 = p := by
        refine lookup_own hB hT hI hp' (r := p) rfl ?_
        exact lookup_eq_some.2 ⟨e.1, hi, hq⟩
      have hc : ((s.overAge now).1.map (·.2)).count p = 1 :=
        List.count_eq_one_of_mem (overAge_nodup hB now) (List.mem_map.2 ⟨e, he, hep⟩)
      rw [hep] at hq
      rw [if_pos hmem, hc]
      rw [if_pos hq] at hplace
      simp only [reduceCtorEq, if_false]
      omega
    · have hc : ((s.overAge now).1.map (·.2)).count p = 0 := by
        refine List.count_eq_zero_of_not_mem fun hin => hmem ?_
        obtain ⟨e, he, rfl⟩ := List.mem_map.1 hin
        have hid := (hB.pending_own e.1 e.2 (overAge_mem he)).2
        rw [hi] at hid
        cases hid
        exact List.mem_map.2 ⟨e, he, rfl⟩
      rw [if_neg hmem, hc]
      omega
  · have hsent := blockRows_sendRows .sweep ((s.overAge now).1.map (·.2)) ho
    rw [if_neg (by decide), List.append_nil, hP.block_rows] at hsent
    exact hsent
  · exact no_dump_sendRows (by decide) hP.no_dump

theorem placed_insert (hB : Books s) (hT : TrackerStream s.sent) (hI : Intact s) (hP : Placed s) :
    Placed { s with
      trackChan := s.trackChan.drop READ_AT_ONCE
      pending := (insertAll s.pending s.group).1
      inserted := s.inserted ++ (insertAll s.pending s.group).2.1
      track := if (insertAll s.pending s.group).2.2 then .panicked else .running
      poisoned := (insertAll s.pending s.group).2.2 } := by
  have hsub : (s.inserted ++ s.group).Sublist s.sent := by
    rw [← hI.tracked]
    exact (List.Sublist.refl _).append (List.take_sublist _ _)
  have hmem : ∀ p ∈ s.group, p ∈ s.sent := fun p hp => hsub.subset (List.mem_append_right _ hp)
  have hnd : ((s.inserted ++ s.group).map (·.transactionId)).Nodup := hT.ids.sublist (hsub.map _)
  rw [List.map_append, List.nodup_append] at hnd
  obtain ⟨-, hndg, hdis⟩ := hnd
  obtain ⟨hall, -⟩ := insertAll_ok s.group s.pending fun p hp => (hT.promised p (hmem p hp)).1
  have hfresh : ∀ p ∈ s.group, p ∉ s.inserted := fun p hp hp' =>
    hdis _ (List.mem_map_of_mem hp') _ (List.mem_map_of_mem hp) rfl
  refine ⟨?_, hP.block_rows, hP.no_dump⟩
  intro p hp
  have hp : p ∈ s.inserted ++ (insertAll s.pending s.group).2.1 := hp
  rw [hall] at hp
  obtain ⟨i, hi⟩ := Option.isSome_iff_exists.1 (hT.promised p (hsub.subset hp)).1
  have hlook : ∀ m : Pending, p.transactionId.bind (m[·]?) = m[i]? := by
    intro m; rw [hi]; rfl
  unfold places CsvWriter.lookup
  simp only [hlook]
  rcases List.mem_append.1 hp with hp | hp
  · have hplace := hP.place p hp
    unfold places CsvWriter.lookup at hplace
    simp only [hlook] at hplace
    rw [insertAll_other s.group s.pending]
    · exact hplace
    · intro q hq hqi
      rw [hall] at hq
      exact hdis _ (List.mem_map_of_mem hp) _ (List.mem_map_of_mem hq) (hi.trans hqi.symm)
  · have hin : p ∈ (insertAll s.pending s.group).2.1 := by rw [hall]; exact hp
    rw [insertAll_get s.group s.pending hndg hin hi, if_pos rfl]
    have hrows : s.rows.count (.sweep, p) = 0 := by
      refine List.count_eq_zero_of_not_mem fun hx => hfresh p hp ?_
      exact hB.other_row .sweep p hx (by decide)
    have hjoin : s.joined.countP (fun j => j.2 = some p) = 0 := by
      refine List.countP_eq_zero.2 fun j hj hjp => hfresh p hp ?_
      have hjp' : j.2 = some p := by simpa using hjp
      exact (hB.joined_own j.1 p (by rw [← hjp']; exact hj)).1
    rw [hrows, hjoin]

theorem placed_step (h : step s l = some s') (hc : s.cancelled = false)
    (ho : s.writerOpen = true) (hB : Books s) (hT : TrackerStream s.sent) (hI : Intact s)
    (hP : Placed s) : Placed s' := by
  cases step_move h with
  | join => exact placed_join ho hB hT hI hP
  | @sweep now =>
    have hPi : Promised s.inserted := fun p hp =>
      hT.promised p (hI.tracked ▸ List.mem_append_left _ hp)
    exact placed_sweep ho (overAge_ok now hB hPi) hB hT hI hP
  | insert => exact placed_insert hB hT hI hP
  | dump _ hcancelled =>
    rw [hc] at hcancelled
    cases hcancelled
  -- the other steps leave the map, the joins and the rows alone
  | _ => exact ⟨hP.place, hP.block_rows, hP.no_dump⟩

theorem placed_reachable (h : lts.Reachable s) (hT : TrackerStream s.sent)
    (hc : s.cancelled = false) (ho : s.writerOpen = true) : Placed s := by
  revert hT hc ho
  refine LTS.InductiveOver.reachable
    (P := fun s => TrackerStream s.sent → s.cancelled = false → s.writerOpen = true → Placed s)
    (Q := fun s => lts.Reachable s) ⟨?_, ?_⟩ (fun _ h => h) s h
  · intro s hs _ _ _
    rw [hs]
    exact ⟨by simp [CsvWriter.init], rfl, by simp [CsvWriter.init]⟩
  · intro s l s' hr hP hs hT hc ho
    have hT0 := hT.of_isPrefix (step_sent hs)
    obtain ⟨hc0, ho0⟩ := step_mono hs
    exact placed_step hs (hc0 hc) (ho0 ho) (books_reachable hr) hT0
      (intact_reachable hr hT0.promised) (hP hT0 (hc0 hc) (ho0 ho))

/-! ## The result -/

structure Conserved (s : CsvWriter) : Prop where
  /-- the records taken from the tracker channel are the first ones sent -/
  taken : s.inserted ++ s.trackChan = s.sent
  /-- each is in one place: pending under its id, a row of the sweep, or one join -/
  place : ∀ p ∈ s.inserted,
    (if s.lookup p = some p then 1 else 0) + s.rows.count (.sweep, p) +
      (s.joined.countP fun j => j.2 = some p) = 1
  /-- a join is between records of one id -/
  joins : ∀ r p, (r, some p) ∈ s.joined → p ∈ s.inserted ∧ r.transactionId = p.transactionId
  /-- the handled block records are the first ones that came in -/
  handled : s.joined.map (·.1) ++ s.inHand ++ s.blockChan = s.received
  /-- each has one row, in that order, which carries the status of the entry it removed -/
  block_rows : (s.rows.filterMap fun row => if row.1 = .block then some row.2 else none) =
    s.joined.map fun j => { j.1 with txStatus := (j.2.map (·.txStatus)).getD [] }
  /-- no other rows than those and the ones of the sweep -/
  other_rows : ∀ source x, (source, x) ∈ s.rows → source ≠ .block →
    source = .sweep ∧ x ∈ s.inserted
  block : s.block ≠ .panicked
  sweep : s.sweep ≠ .panicked
  track : s.track ≠ .panicked

/-- **Conservation.** In every reachable state before cancellation, with the writer channel
open: the block records come from the subscriber, which leaves their status empty. -/
theorem conservation (h : lts.Reachable s) (hT : TrackerStream s.sent)
    (hblock : ∀ r ∈ s.received, r.txStatus = []) (hc : s.cancelled = false)
    (ho : s.writerOpen = true) : Conserved s := by
  have hB := books_reachable h
  have hI := intact_reachable h hT.promised
  have hP := placed_reachable h hT hc ho
  have hblocks := (streams_reachable h).taken hI.block
  refine ⟨hI.tracked, hP.place, ?_, hblocks, ?_, ?_, hI.block, hI.sweep, hI.track⟩
  · intro r p hj
    obtain ⟨h1, -, h2⟩ := hB.joined_own r p hj
    exact ⟨h1, h2⟩
  · refine hP.block_rows.trans (List.map_congr_left fun j hj => ?_)
    obtain ⟨r, q⟩ := j
    cases q with
    | some p => rfl
    | none =>
      have hr : r ∈ s.received := by
        rw [← hblocks]
        exact List.mem_append_left _ (List.mem_append_left _ (List.mem_map.2 ⟨_, hj, rfl⟩))
      have he := hblock r hr
      cases r
      simp only at he
      subst he
      rfl
  · intro source x hx hne
    refine ⟨?_, hB.other_row source x hx hne⟩
    cases source with
    | block => exact absurd rfl hne
    | sweep => rfl
    | dump => exact absurd hx (hP.no_dump x)

/-- Of three inserted records one is joined, one expires and one stays pending. -/
def threePlaces : List Label :=
  [.sendTracked (tracked 0 5 "a"), .sendTracked (tracked 1 6 "b"),
    .sendTracked (tracked 2 90000 "c"), .trackInsert, .sendBlock (reported 1 "b"), .blockTake,
    .blockHandle, .sweepTick 100000]

theorem conservation_threePlaces : ∃ s, lts.Reachable s ∧
    s.inserted = [tracked 0 5 "a", tracked 1 6 "b", tracked 2 90000 "c"] ∧
    s.rows.map (fun row => (row.1, row.2.signature)) = [(.block, "b"), (.sweep, "a")] ∧
    Conserved s := by
  obtain ⟨s, hr, hs⟩ := reachable_of_labels threePlaces
    (fun s => (s.inserted, s.sent, s.received,
      s.rows.map (fun row => (row.1, row.2.signature)), s.cancelled, s.writerOpen))
    ([tracked 0 5 "a", tracked 1 6 "b", tracked 2 90000 "c"],
      [tracked 0 5 "a", tracked 1 6 "b", tracked 2 90000 "c"], [reported 1 "b"],
      [(.block, "b"), (.sweep, "a")], false, true) rfl
  simp only [Prod.mk.injEq] at hs
  obtain ⟨h1, h2, h3, h4, h5, h6⟩ := hs
  have hT : TrackerStream s.sent := by
    rw [h2]
    exact ⟨by simp [Promised, tracked], by simp [tracked]⟩
  have hb : ∀ r ∈ s.received, r.txStatus = [] := by
    rw [h3]
    simp [reported]
  exact ⟨s, hr, h1, h4, conservation hr hT hb h5 h6⟩

end TpuTools.Writer
