import Mathlib.Data.List.Nodup
import TpuTools.L3Writer.Ledger

/-!
# How many rows a sent transaction gets

Three tasks write rows for sent transactions, and nothing orders them. A transaction gets
two rows when it is inserted after its block record was handled (`duplicate_row`), when its
block record is handled after its entry expired or was dumped, and when the sweep runs once
more after the dump.

* `Timely`: the steps that do none of this.
* `rows_unique`: in runs of such steps every signature has at most one row.
-/
namespace TpuTools.Writer

variable {s s' : CsvWriter} {l : Label}

/-- No inserted transaction was reported before; a block record is handled before the entry
of its transaction is expired or dumped; after the dump the sweep finds nothing to write. -/
def Timely (s : CsvWriter) : Label → Prop
  | .trackInsert => ∀ p ∈ s.group, ∀ j ∈ s.joined, j.1.signature ≠ p.signature
  | .blockHandle => ∀ record ∈ s.inHand.take 1, ∀ p ∈ s.inserted, p.signature = record.signature →
      (Source.sweep, p) ∉ s.rows ∧ (Source.dump, p) ∉ s.rows
  | .sweepTick now => s.track = .cancelled → (s.overAge now).1 = []
  | _ => True

instance (s : CsvWriter) : (l : Label) → Decidable (Timely s l)
  | .trackInsert =>
    inferInstanceAs (Decidable (∀ p ∈ s.group, ∀ j ∈ s.joined, j.1.signature ≠ p.signature))
  | .blockHandle =>
    inferInstanceAs (Decidable (∀ record ∈ s.inHand.take 1, ∀ p ∈ s.inserted,
      p.signature = record.signature →
        (Source.sweep, p) ∉ s.rows ∧ (Source.dump, p) ∉ s.rows))
  | .sweepTick now =>
    inferInstanceAs (Decidable (s.track = .cancelled → (s.overAge now).1 = []))
  | .sendTracked _ | .dropTracker | .sendBlock _ | .dropBlock | .cancel | .blockTake
  | .blockClosed | .blockCancelled | .sweepCancelled | .trackClosed
  | .trackCancelled | .writerTake | .writeRow _ | .flush _ | .writerClosed => .isTrue trivial

theorem timely_of_labels {α : Type} (ls : List Label) (view : CsvWriter → α) (a : α)
    (h : (LTS.exec (fun s l => if Timely s l then step s l else none) .init ls).map view = some a) :
    ∃ s, (lts.guard Timely).Reachable s ∧ view s = a :=
  @LTS.guard_reachable_of_view _ _ _ (· = CsvWriter.init) step Timely _ _ rfl ls view a h

/-- The two input streams: signatures are distinct on each, and a block record of a sent
transaction has its id. -/
structure DistinctStreams (s : CsvWriter) : Prop where
  sent : (s.sent.map (·.signature)).Nodup
  received : (s.received.map (·.signature)).Nodup
  agree : ∀ r ∈ s.received, ∀ p ∈ s.sent, r.signature = p.signature →
    r.transactionId = p.transactionId

theorem DistinctStreams.before (h : step s l = some s') (hD : DistinctStreams s') :
    DistinctStreams s where
  sent := hD.sent.sublist ((step_sent h).sublist.map _)
  received := hD.received.sublist ((step_received h).sublist.map _)
  agree r hr p hp := hD.agree r ((step_received h).subset hr) p ((step_sent h).subset hp)

/-- Every signature has one row at most, and what is pending has none until it is dumped. -/
structure Fresh (s : CsvWriter) : Prop where
  unique : (s.rows.map (·.2.signature)).Nodup
  pending : s.poisoned = false → s.track ≠ .cancelled → ∀ (i : Nat) (p : CSVRecord),
    s.pending[i]? = some p → p.signature ∉ s.rows.map (·.2.signature)

theorem joinRow_signature (r : CSVRecord) (q : Option CSVRecord) :
    (joinRow r q).signature = r.signature := by
  cases q <;> rfl

/-- Rows of new signatures keep the rows distinct. -/
theorem unique_sendRows {source : Source} {records : List CSVRecord}
    (hu : (s.rows.map (·.2.signature)).Nodup) (hnd : (records.map (·.signature)).Nodup)
    (hnew : ∀ x ∈ records, x.signature ∉ s.rows.map (·.2.signature)) :
    ((s.sendRows source records).rows.map (·.2.signature)).Nodup := by
  have hrows : (s.sendRows source records).rows.map (·.2.signature) =
      s.rows.map (·.2.signature) ++ if s.writerOpen then records.map (·.signature) else [] := by
    unfold CsvWriter.sendRows
    rw [List.map_append]
    split
    · rw [List.map_map]; rfl
    · rfl
  rw [hrows]
  split
  · refine List.nodup_append.2 ⟨hu, hnd, ?_⟩
    rintro a ha b hb rfl
    obtain ⟨x, hx, rfl⟩ := List.mem_map.1 hb
    exact hnew x hx ha
  · simpa using hu

theorem mem_signatures_sendRows {source : Source} {records : List CSVRecord} {a : String}
    (h : a ∈ (s.sendRows source records).rows.map (·.2.signature)) :
    a ∈ s.rows.map (·.2.signature) ∨ a ∈ records.map (·.signature) := by
  obtain ⟨⟨source', x⟩, hx, rfl⟩ := List.mem_map.1 h
  rcases mem_sent_rows hx with hx | ⟨-, hx⟩
  · exact Or.inl (List.mem_map_of_mem hx)
  · exact Or.inr (List.mem_map_of_mem hx)

section Steps

variable (hB : Books s) (hS : Streams s) (hD : DistinctStreams s) (hF : Fresh s)

include hS in
theorem inserted_sent {p : CSVRecord} (hp : p ∈ s.inserted) : p ∈ s.sent :=
  hS.tracked.subset (List.mem_append_left _ hp)

include hS hD in
theorem eq_of_signature {p q : CSVRecord} (hp : p ∈ s.inserted) (hq : q ∈ s.inserted)
    (he : p.signature = q.signature) : p = q :=
  List.inj_on_of_nodup_map hD.sent (inserted_sent hS hp) (inserted_sent hS hq) he

include hB hS hD in
/-- Distinct entries of the map have distinct signatures. -/
theorem entries_signatures_nodup {es : List (Nat × CSVRecord)}
    (hes : ∀ e ∈ es, s.pending[e.1]? = some e.2) (hnd : (es.map (·.1)).Nodup) :
    (es.map (·.2.signature)).Nodup := by
  refine List.Nodup.map_on ?_ (List.Nodup.of_map _ hnd)
  intro a ha b hb he
  obtain ⟨ha1, ha2⟩ := hB.pending_own a.1 a.2 (hes a ha)
  obtain ⟨hb1, hb2⟩ := hB.pending_own b.1 b.2 (hes b hb)
  have hab := eq_of_signature hS hD ha1 hb1 he
  rw [hab, hb2] at ha2
  exact Prod.ext (Option.some.inj ha2).symm hab

include hB hS hD hF in
theorem fresh_join {record : CSVRecord} {rest : List CSVRecord}
    (hb : s.block = .running (record :: rest)) (ht : Timely s .blockHandle) :
    Fresh (s.join record rest) := by
  have hhand : s.inHand = record :: rest := by simp [CsvWriter.inHand, hb]
  -- the record was not handled before, and its entry is not written
  have hnd : ((s.joined.map (·.1) ++ s.inHand).map (·.signature)).Nodup :=
    hD.received.sublist (((List.sublist_append_left _ _).trans hS.blocks).map _)
  have hnew : record.signature ∉ s.rows.map (·.2.signature) := by
    intro hin
    obtain ⟨⟨source, x⟩, hx, he⟩ := List.mem_map.1 hin
    have he : x.signature = record.signature := he
    by_cases hsrc : source = .block
    · subst hsrc
      obtain ⟨j, hj, rfl⟩ := hB.block_row x hx
      rw [joinRow_signature] at he
      rw [hhand, List.map_append, List.nodup_append] at hnd
      refine hnd.2.2 record.signature ?_ record.signature ?_ rfl
      · exact List.mem_map.2 ⟨j.1, List.mem_map_of_mem hj, he⟩
      · exact List.mem_map_of_mem List.mem_cons_self
    · have hxi := hB.other_row source x hx hsrc
      obtain ⟨h1, h2⟩ := ht record (by simp [hhand]) x hxi he
      cases source with
      | block => exact hsrc rfl
      | sweep => exact h1 hx
      | dump => exact h2 hx
  have hrec : record ∈ s.received := by
    refine hS.blocks.subset (List.mem_append_left _ (List.mem_append_right _ ?_))
    rw [hhand]
    exact List.mem_cons_self
  refine ⟨?_, ?_⟩
  · refine unique_sendRows hF.unique (by simp) ?_
    intro x hx
    rw [List.mem_singleton.1 hx, joinRow_signature]
    exact hnew
  · intro hp hc i p hpi
    have hpi' : (s.removeId record)[i]? = some p := hpi
    rw [removeId_get] at hpi'
    split at hpi'
    · cases hpi'
    · rename_i hne
      have hold := hF.pending hp hc i p hpi'
      obtain ⟨hp1, hp2⟩ := hB.pending_own i p hpi'
      intro hin
      rcases mem_signatures_sendRows hin with hin | hin
      · exact hold hin
      · simp only [List.map_cons, List.map_nil, List.mem_singleton, joinRow_signature] at hin
        exact hne ((hD.agree record hrec p (inserted_sent hS hp1) hin.symm).trans hp2)

include hB hS hD hF in
theorem fresh_sweep {now : Nat} (hp : s.poisoned = false) (ht : Timely s (.sweepTick now)) :
    Fresh { s.sendRows .sweep ((s.overAge now).1.map (·.2)) with
      pending := s.swept now
      sweep := if (s.overAge now).2 then .panicked else .running
      poisoned := (s.overAge now).2 } := by
  have hes : ∀ e ∈ (s.overAge now).1, s.pending[e.1]? = some e.2 := fun e he => overAge_mem he
  have hkeys : ((s.overAge now).1.map (·.1)).Nodup :=
    (entries_keys_nodup s.pending).sublist ((sweepLoop_isPrefix _ _ _).sublist.map _)
  refine ⟨?_, ?_⟩
  · refine @unique_sendRows s .sweep _ hF.unique ?_ ?_
    · rw [List.map_map]
      exact entries_signatures_nodup hB hS hD hes hkeys
    · intro x hx
      obtain ⟨e, he, rfl⟩ := List.mem_map.1 hx
      have hc : s.track ≠ .cancelled := by
        intro hc
        rw [ht hc] at he
        simp at he
      exact hF.pending hp hc e.1 e.2 (hes e he)
  · intro hok hc i p hpi
    have hok : (s.overAge now).2 = false := hok
    have hpi : (s.swept now)[i]? = some p := hpi
    have hold := hF.pending hp hc i p (swept_sub hpi)
    rw [swept_get now i hok] at hpi
    split at hpi
    · cases hpi
    · rename_i hni
      intro hin
      rcases mem_signatures_sendRows hin with hin | hin
      · exact hold hin
      · -- a swept entry of this signature would be this entry
        rw [List.map_map] at hin
        obtain ⟨e, he, hes'⟩ := List.mem_map.1 hin
        obtain ⟨he1, he2⟩ := hB.pending_own e.1 e.2 (hes e he)
        obtain ⟨hp1, hp2⟩ := hB.pending_own i p hpi
        have hep := eq_of_signature hS hD he1 hp1 hes'
        rw [hep, hp2] at he2
        refine hni (List.mem_map.2 ⟨e, he, ?_⟩)
        exact (Option.some.inj he2).symm

include hB hS hD hF in
theorem fresh_insert (hrun : s.track = .running) (hp : s.poisoned = false)
    (ht : Timely s .trackInsert) :
    Fresh { s with
      trackChan := s.trackChan.drop READ_AT_ONCE
      pending := (insertAll s.pending s.group).1
      inserted := s.inserted ++ (insertAll s.pending s.group).2.1
      track := if (insertAll s.pending s.group).2.2 then .panicked else .running
      poisoned := (insertAll s.pending s.group).2.2 } := by
  refine ⟨hF.unique, ?_⟩
  intro _ _ i p hpi
  rcases insertAll_mem s.group s.pending hpi with ⟨hin, -⟩ | hold
  · have hg : p ∈ s.group := (insertAll_isPrefix _ _).subset hin
    intro hsig
    obtain ⟨⟨source, x⟩, hx, he⟩ := List.mem_map.1 hsig
    have he : x.signature = p.signature := he
    by_cases hsrc : source = .block
    · subst hsrc
      obtain ⟨j, hj, rfl⟩ := hB.block_row x hx
      rw [joinRow_signature] at he
      exact ht p hg j hj he
    · have hxi := hB.other_row source x hx hsrc
      have hnd : ((s.inserted ++ s.trackChan).map (·.signature)).Nodup :=
        hD.sent.sublist (hS.tracked.map _)
      rw [List.map_append, List.nodup_append] at hnd
      refine hnd.2.2 p.signature ?_ p.signature ?_ rfl
      · exact List.mem_map.2 ⟨x, hxi, he⟩
      · exact List.mem_map_of_mem (List.mem_of_mem_take hg)
  · exact hF.pending hp (by simp [hrun]) i p hold

include hB hS hD hF in
theorem fresh_dump (hrun : s.track = .running) (hp : s.poisoned = false) :
    Fresh { s.sendRows .dump (s.pending.toList.map (·.2)) with track := .cancelled } := by
  have hes : ∀ e ∈ s.pending.toList, s.pending[e.1]? = some e.2 := fun e he => mem_entries.1 he
  refine ⟨?_, ?_⟩
  · refine @unique_sendRows s .dump _ hF.unique ?_ ?_
    · rw [List.map_map]
      exact entries_signatures_nodup hB hS hD hes (entries_keys_nodup s.pending)
    · intro x hx
      obtain ⟨e, he, rfl⟩ := List.mem_map.1 hx
      exact hF.pending hp (by simp [hrun]) e.1 e.2 (hes e he)
  · intro _ hc
    simp at hc

end Steps

theorem fresh_step (h : step s l = some s') (ht : Timely s l) (hB : Books s) (hS : Streams s)
    (hD : DistinctStreams s) (hF : Fresh s) : Fresh s' := by
  cases step_move h with
  | join hb => exact fresh_join hB hS hD hF hb ht
  | sweep _ hp => exact fresh_sweep hB hS hD hF hp ht
  | insert hrun hp => exact fresh_insert hB hS hD hF hrun hp ht
  | dump hrun _ hp => exact fresh_dump hB hS hD hF hrun hp
  | insertPoisoned _ hp | dumpPoisoned _ hp =>
    refine ⟨hF.unique, fun hp' => ?_⟩
    rw [hp] at hp'
    cases hp'
  | trackClosed hrun => exact ⟨hF.unique, fun hp _ => hF.pending hp (by simp [hrun])⟩
  | _ => exact ⟨hF.unique, hF.pending⟩

/-- **At most one row.** In every run of timely steps each signature has at most one row. -/
theorem rows_unique (h : (lts.guard Timely).Reachable s) (hD : DistinctStreams s) :
    (s.rows.map (·.2.signature)).Nodup := by
  have key : DistinctStreams s → Fresh s := by
    refine LTS.InductiveOver.reachable (P := fun s => DistinctStreams s → Fresh s)
      (Q := fun s => Books s ∧ Streams s) ⟨?_, ?_⟩ ?_ s h
    · intro s hs _
      rw [hs]
      exact ⟨by simp [CsvWriter.init], by simp [CsvWriter.init]⟩
    · intro s l s' hQ hF hs hD
      have hD0 := hD.before hs.2
      exact fresh_step hs.2 hs.1 hQ.1 hQ.2 hD0 (hF hD0)
    · intro s hs
      have hr := LTS.guard_reachable hs
      exact ⟨books_reachable hr, streams_reachable hr⟩
  exact (key hD).unique

/-- One transaction is joined, the other one dumped. -/
theorem rows_unique_two : ∃ s, (lts.guard Timely).Reachable s ∧
    s.rows.map (fun row => (row.1, row.2.signature)) = [(.block, "a"), (.dump, "b")] ∧
    (s.rows.map (·.2.signature)).Nodup := by
  obtain ⟨s, hr, hs⟩ := timely_of_labels
    [.sendTracked (tracked 0 5 "a"), .sendTracked (tracked 1 6 "b"), .trackInsert,
      .sendBlock (reported 0 "a"), .blockTake, .blockHandle, .cancel, .trackCancelled]
    (fun s => (s.sent, s.received, s.rows.map (fun row => (row.1, row.2.signature))))
    ([tracked 0 5 "a", tracked 1 6 "b"], [reported 0 "a"], [(.block, "a"), (.dump, "b")]) rfl
  simp only [Prod.mk.injEq] at hs
  obtain ⟨h1, h2, h3⟩ := hs
  have hD : DistinctStreams s := by
    constructor
    · rw [h1]; decide
    · rw [h2]; decide
    · rw [h1, h2]; decide
  exact ⟨s, hr, h3, rows_unique hr hD⟩

/-- The dump leaves its entries in the map, so a block record in the middle of a batch at the
cancellation joins an entry that is already written. -/
theorem duplicate_row : ∃ s, lts.Reachable s ∧ DistinctStreams s ∧
    (s.sent.map (·.transactionId)).Nodup ∧ ¬ (s.rows.map (·.2.signature)).Nodup := by
  obtain ⟨s, hr, hs⟩ := reachable_of_labels
    [.sendTracked (tracked 0 5 "a"), .trackInsert, .sendBlock (reported 0 "a"), .blockTake,
      .cancel, .trackCancelled, .blockHandle]
    (fun s => (s.sent, s.received, s.rows.map (·.2.signature)))
    ([tracked 0 5 "a"], [reported 0 "a"], ["a", "a"]) rfl
  simp only [Prod.mk.injEq] at hs
  obtain ⟨h1, h2, h3⟩ := hs
  have hD : DistinctStreams s := by
    constructor
    · rw [h1]; decide
    · rw [h2]; decide
    · rw [h1, h2]; decide
  refine ⟨s, hr, hD, ?_, ?_⟩
  · rw [h1]; decide
  · rw [h3]; decide

end TpuTools.Writer
