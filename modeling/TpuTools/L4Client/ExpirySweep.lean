import TpuTools.L4Client.RunClient

/-!
# The expiry sweep (`rate-latency-tool/src/csv_writer.rs`)

The sweep walks the map of pending transactions in the order of their ids and stops at the
first one that is young enough. That is right as long as a later id has no earlier
timestamp, which no code of the writer establishes: ids and timestamps come from the closure
of `run_client`, and block records and sweeps take entries out in between.

`Steady` is what the closure needs: a clock that does not go back, and ids that do not wrap.

* `sweepLoop_eq_filter`: on a list in the order of its timestamps the loop is a filter.
* `InOrder`: the records handed over are numbered and stamped in order.
* **`sweep_exact`**: in every reachable state the map is in order, and a sweep writes and
  removes the entries that are too old, and only these.
-/
namespace TpuTools.Client
open Sender Writer Ints

/-- `now.saturating_sub(sent_timestamp) > MAX_TX_AGE_MS` -/
def expiredAt (now : Nat) (p : CSVRecord) : Bool :=
  p.sentTimestamp.any fun sentTimestamp => decide (now - sentTimestamp > MAX_TX_AGE_MS)

/-- All entries that are too old, in the order of their ids. -/
def expired (now : Nat) (pending : Pending) : List (Nat × CSVRecord) :=
  pending.toList.filter fun e => expiredAt now e.2

/-- `p` was not sent after `q`. -/
def SentBefore (p q : CSVRecord) : Prop :=
  ∀ t ∈ p.sentTimestamp, ∀ u ∈ q.sentTimestamp, t ≤ u

instance (p q : CSVRecord) : Decidable (SentBefore p q) :=
  inferInstanceAs (Decidable (∀ t ∈ p.sentTimestamp, ∀ u ∈ q.sentTimestamp, t ≤ u))

/-! ## The loop -/

/-- What is too old was sent after nothing that is young enough. -/
theorem expiredAt_of_sentBefore {now : Nat} {p q : CSVRecord} (h : SentBefore p q)
    (hp : p.sentTimestamp.isSome = true) (hq : expiredAt now q = true) :
    expiredAt now p = true := by
  obtain ⟨t, ht⟩ := Option.isSome_iff_exists.1 hp
  unfold expiredAt at hq ⊢
  cases hu : q.sentTimestamp with
  | none => rw [hu] at hq; cases hq
  | some u =>
    have hle : t ≤ u := h t ht u hu
    simp only [hu, ht, Option.any_some, decide_eq_true_eq] at hq ⊢
    omega

/-- **The early exit.** On a list in the order of its timestamps the loop sends what a filter
of the whole list would. -/
theorem sweepLoop_eq_filter (now : Nat) : ∀ l : List (Nat × CSVRecord),
    (∀ e ∈ l, e.2.sentTimestamp.isSome = true) → l.Pairwise (fun e f => SentBefore e.2 f.2) →
      sweepLoop true now l = (l.filter fun e => expiredAt now e.2, false)
  | [], _, _ => rfl
  | (id, rec) :: rest, hstamp, hsorted => by
    obtain ⟨hfirst, hrest⟩ := List.pairwise_cons.1 hsorted
    have hrec : rec.sentTimestamp.isSome = true := hstamp _ List.mem_cons_self
    obtain ⟨t, ht⟩ := Option.isSome_iff_exists.1 hrec
    have hone : expiredAt now rec = decide (now - t > MAX_TX_AGE_MS) := by
      simp only [expiredAt, ht, Option.any_some]
    unfold sweepLoop
    simp only [ht, and_true]
    by_cases hage : now - t > MAX_TX_AGE_MS
    · have hold : expiredAt now rec = true := by rw [hone, decide_eq_true hage]
      have ih :=
        sweepLoop_eq_filter now rest (fun e he => hstamp e (List.mem_cons_of_mem _ he)) hrest
      rw [if_pos hage, ih]
      simp only [List.filter_cons, hold, if_true]
    · -- everything after the first young entry is young too
      have hyoung : expiredAt now rec = false := by rw [hone, decide_eq_false hage]
      have hnone : rest.filter (fun e => expiredAt now e.2) = [] := by
        rw [List.filter_eq_nil_iff]
        intro e he hexp
        rw [expiredAt_of_sentBefore (hfirst e he) hrec hexp] at hyoung
        cases hyoung
      rw [if_neg hage]
      simp only [List.filter_cons, hyoung, Bool.false_eq_true, if_false, hnone]

/-! ## The records of the closure -/

/-- The clock has not gone back since an earlier record was stamped, and fewer than `2 ^ 64`
records came before. -/
def Steady (s : RunClient) : ClientLabel → Prop
  | .tick _ timestamp _ _ =>
    (∀ p ∈ s.handed, ∀ t ∈ p.sentTimestamp, t ≤ timestamp) ∧ s.handed.length < 2 ^ 64
  | _ => True

instance (s : RunClient) : (l : ClientLabel) → Decidable (Steady s l)
  | .tick _ timestamp _ _ => inferInstanceAs (Decidable
      ((∀ p ∈ s.handed, ∀ t ∈ p.sentTimestamp, t ≤ timestamp) ∧ s.handed.length < 2 ^ 64))
  | .cancelSending | .cancel | .schedulerEnds | .writer _ => .isTrue trivial

/-- The records handed over have the ids `0, 1, 2, ...` and timestamps in this order, and the
tracker channel has taken some of them, in order. -/
structure InOrder (s : RunClient) : Prop where
  ids : s.handed.map (·.transactionId) = (List.range s.handed.length).map some
  stamped : ∀ p ∈ s.handed, p.sentTimestamp.isSome = true
  sorted : s.handed.Pairwise SentBefore
  next : s.build.txId = s.handed.length % 2 ^ 64
  sent : s.writer.sent.Sublist s.handed

section Steps

variable {sdk : Sdk} {payers : List Keypair} {computeUnitPrice : Option Nat} {s s' : RunClient}
  {l : ClientLabel}

theorem inOrder_init : InOrder .init where
  ids := rfl
  stamped := by simp [RunClient.init]
  sorted := .nil
  next := rfl
  sent := .slnil

/-- One more record, whether the channel takes it or not. -/
theorem inOrder_tick {signature : String} {slot timestamp : Nat}
    {txStatus : List (TransactionSendStatus × String)}
    (hclock : ∀ p ∈ s.handed, ∀ t ∈ p.sentTimestamp, t ≤ timestamp)
    (hfew : s.handed.length < 2 ^ 64) (hO : InOrder s) :
    InOrder (s.built.sendRecord (tickRecord s signature slot timestamp txStatus)) := by
  have hid : s.build.txId = s.handed.length := by
    rw [hO.next, Nat.mod_eq_of_lt hfew]
  obtain ⟨hbuild, hhanded, hsent⟩ : (s.built.sendRecord
        (tickRecord s signature slot timestamp txStatus)).build = s.built.build ∧
      (s.built.sendRecord (tickRecord s signature slot timestamp txStatus)).handed =
        s.handed ++ [tickRecord s signature slot timestamp txStatus] ∧
      ((s.built.sendRecord (tickRecord s signature slot timestamp txStatus)).writer.sent).Sublist
        (s.handed ++ [tickRecord s signature slot timestamp txStatus]) := by
    rcases sendRecord_cases s.built (tickRecord s signature slot timestamp txStatus) with
      ⟨w, hw, heq⟩ | heq
    · rw [heq]
      refine ⟨rfl, rfl, ?_⟩
      rw [show w.sent = s.writer.sent ++ [tickRecord s signature slot timestamp txStatus] from
        (step_channels hw).1]
      exact hO.sent.append (List.Sublist.refl _)
    · rw [heq]
      exact ⟨rfl, rfl, hO.sent.trans (List.sublist_append_left _ _)⟩
  refine ⟨?_, ?_, ?_, ?_, by rw [hhanded]; exact hsent⟩
  · rw [hhanded, List.map_append, hO.ids, List.length_append, List.length_singleton,
      List.range_succ, List.map_append]
    simp only [List.map_cons, List.map_nil, tickRecord, sentRecord, hid]
  · rw [hhanded]
    intro p hp
    rcases List.mem_append.1 hp with hp | hp
    · exact hO.stamped p hp
    · rw [List.mem_singleton.1 hp]
      rfl
  · rw [hhanded, List.pairwise_append]
    refine ⟨hO.sorted, List.pairwise_singleton _ _, ?_⟩
    intro p hp q hq t ht u hu
    rw [List.mem_singleton.1 hq] at hu
    cases hu
    exact hclock p hp t ht
  · rw [hbuild, hhanded]
    simp only [RunClient.built, wrappingAdd, hid, List.length_append, List.length_singleton]

theorem inOrder_step (h : clientStep sdk payers computeUnitPrice s l = some s')
    (hc : Steady s l) (hO : InOrder s) : InOrder s' := by
  cases client_move h with
  | tick => exact inOrder_tick hc.1 hc.2 hO
  | tickEnds | schedulerEnds | cancelSending | cancel =>
    exact ⟨hO.ids, hO.stamped, hO.sorted, hO.next, hO.sent⟩
  | writer hown hw =>
    exact ⟨hO.ids, hO.stamped, hO.sorted, hO.next, by rw [own_sent hown hw]; exact hO.sent⟩

theorem inOrder_reachable
    (h : ((client sdk payers computeUnitPrice).guard Steady).Reachable s) : InOrder s := by
  refine LTS.Inductive.reachable (P := InOrder) ⟨?_, ?_⟩ s h
  · intro s hs
    rw [show s = .init from hs]
    exact inOrder_init
  · intro s l s' hO hs
    exact inOrder_step hs.2 hs.1 hO

/-! ## The map -/

/-- The ids of the records handed over are their positions. -/
theorem InOrder.getElem? (hO : InOrder s) {p : CSVRecord} {i : Nat} (hp : p ∈ s.handed)
    (hi : p.transactionId = some i) : s.handed[i]? = some p := by
  obtain ⟨k, hk, rfl⟩ := List.mem_iff_getElem.1 hp
  have hid : (s.handed.map (·.transactionId))[k]? = ((List.range s.handed.length).map some)[k]? := by
    rw [hO.ids]
  rw [List.getElem?_map, List.getElem?_map, List.getElem?_eq_getElem hk,
    List.getElem?_range hk] at hid
  simp only [Option.map_some, hi, Option.some.injEq] at hid
  rw [hid, List.getElem?_eq_getElem hk]

theorem InOrder.sentBefore (hO : InOrder s) {p q : CSVRecord} {i j : Nat} (hij : i < j)
    (hp : s.handed[i]? = some p) (hq : s.handed[j]? = some q) : SentBefore p q := by
  obtain ⟨hi, rfl⟩ := List.getElem?_eq_some_iff.1 hp
  obtain ⟨hj, rfl⟩ := List.getElem?_eq_some_iff.1 hq
  exact List.pairwise_iff_getElem.1 hO.sorted i j hi hj hij

end Steps

/-- Every entry has its own id and a timestamp, and timestamps do not decrease with the id. -/
structure Ordered (pending : Pending) : Prop where
  own : ∀ (i : Nat) (p : CSVRecord), pending[i]? = some p →
    p.transactionId = some i ∧ p.sentTimestamp.isSome = true
  sorted : ∀ (i j : Nat) (p q : CSVRecord), i < j → pending[i]? = some p →
    pending[j]? = some q → SentBefore p q

section Map

variable {pending : Pending}

/-- The map is walked in the order of the ids. -/
theorem keys_lt (pending : Pending) : pending.toList.Pairwise fun e f => e.1 < f.1 := by
  refine (Std.TreeMap.ordered_keys_toList (t := pending)).imp fun h => ?_
  exact compare_lt_iff_lt.1 h

theorem Ordered.toList (hord : Ordered pending) :
    pending.toList.Pairwise fun e f => SentBefore e.2 f.2 := by
  refine (keys_lt pending).imp_of_mem ?_
  intro e f he hf hlt
  exact hord.sorted e.1 f.1 e.2 f.2 hlt (mem_entries.1 he) (mem_entries.1 hf)

theorem mem_expired_keys {now i : Nat} :
    i ∈ (expired now pending).map (·.1) ↔ ∃ p, pending[i]? = some p ∧ expiredAt now p = true := by
  simp only [expired, List.mem_map, List.mem_filter]
  constructor
  · intro ⟨e, ⟨he, hexp⟩, hi⟩
    subst hi
    exact ⟨e.2, mem_entries.1 he, hexp⟩
  · intro ⟨p, hp, hexp⟩
    exact ⟨(i, p), ⟨mem_entries.2 hp, hexp⟩, rfl⟩

end Map

/-- The map, the channel and the rows after a sweep at `now`. -/
def RunClient.sweptAt (s : RunClient) (now : Nat) : RunClient :=
  { s with writer := { s.writer with
      pending := ((expired now s.writer.pending).map (·.1)).foldl (·.erase ·) s.writer.pending
      writerChan := s.writer.writerChan ++ (expired now s.writer.pending).map (·.2.asCsvRecord)
      rows := s.writer.rows ++ (expired now s.writer.pending).map fun e => (.sweep, e.2) } }

/-- The map after a sweep: the entries that are young enough. -/
theorem sweptAt_get (s : RunClient) (now i : Nat) :
    (s.sweptAt now).writer.pending[i]? =
      (s.writer.pending[i]?).filter fun p => !expiredAt now p := by
  show (((expired now s.writer.pending).map (·.1)).foldl (·.erase ·) s.writer.pending)[i]? = _
  rw [getElem?_erase_ids]
  cases hp : s.writer.pending[i]? with
  | none => split <;> rfl
  | some p =>
    have hmem : i ∈ (expired now s.writer.pending).map (·.1) ↔ expiredAt now p = true := by
      rw [mem_expired_keys]
      simp only [hp, Option.some.injEq, exists_eq_left']
    cases hexp : expiredAt now p with
    | true => rw [if_pos (hmem.2 hexp), Option.filter_some, hexp]; rfl
    | false => rw [if_neg (by rw [hmem, hexp]; simp), Option.filter_some, hexp]; rfl

section Reachable

variable {sdk : Sdk} {payers : List Keypair} {computeUnitPrice : Option Nat} {s : RunClient}

/-- What is pending was handed over. -/
theorem pending_handed (hO : InOrder s) (hB : Books s.writer) (hI : Intact s.writer) {i : Nat}
    {p : CSVRecord} (hp : s.writer.pending[i]? = some p) :
    p.transactionId = some i ∧ s.handed[i]? = some p := by
  obtain ⟨hins, hid⟩ := hB.pending_own i p hp
  have hsent : p ∈ s.writer.sent := hI.tracked ▸ List.mem_append_left _ hins
  exact ⟨hid, hO.getElem? (hO.sent.subset hsent) hid⟩

theorem ordered_pending (hO : InOrder s) (hB : Books s.writer) (hI : Intact s.writer) :
    Ordered s.writer.pending where
  own i p hp := by
    obtain ⟨hid, hhanded⟩ := pending_handed hO hB hI hp
    exact ⟨hid, hO.stamped p (List.mem_of_getElem? hhanded)⟩
  sorted i j p q hij hp hq :=
    hO.sentBefore hij (pending_handed hO hB hI hp).2 (pending_handed hO hB hI hq).2

/-- No `unwrap` of the writer fails on the records of the closure. -/
theorem intact_of_steady
    (h : ((client sdk payers computeUnitPrice).guard Steady).Reachable s) :
    Intact s.writer := by
  have hO := inOrder_reachable h
  refine intact_reachable (writer_projection.reachable s (LTS.guard_reachable h)) ?_
  intro p hp
  have hmem := hO.sent.subset hp
  have hid : p.transactionId ∈ s.handed.map (·.transactionId) := List.mem_map_of_mem hmem
  rw [hO.ids] at hid
  obtain ⟨i, -, hi⟩ := List.mem_map.1 hid
  exact ⟨by rw [← hi]; rfl, hO.stamped p hmem⟩

/-- **The sweep is the full filter.** In every reachable state timestamps do not decrease with
the id, and a sweep at any time, while the writer channel is open, writes the entries that are
too old in the order of their ids, removes these, and changes nothing else. -/
theorem sweep_exact (h : ((client sdk payers computeUnitPrice).guard Steady).Reachable s) :
    Ordered s.writer.pending ∧ ∀ now, s.writer.sweep = .running → s.writer.writerOpen = true →
      clientStep sdk payers computeUnitPrice s (.writer (.sweepTick now)) =
        some (s.sweptAt now) ∧
      ((expired now s.writer.pending).map (·.1)).Pairwise (· < ·) ∧
      ∀ i : Nat, (s.sweptAt now).writer.pending[i]? =
        (s.writer.pending[i]?).filter fun p => !expiredAt now p := by
  have hO := inOrder_reachable h
  have hB := books_reachable (writer_projection.reachable s (LTS.guard_reachable h))
  have hI := intact_of_steady h
  have hord := ordered_pending hO hB hI
  refine ⟨hord, fun now hrun hopen => ⟨?_, ?_, sweptAt_get s now⟩⟩
  · have hage : s.writer.overAge now = (expired now s.writer.pending, false) := by
      unfold CsvWriter.overAge
      rw [hopen]
      refine sweepLoop_eq_filter now _ ?_ hord.toList
      intro e he
      exact (hord.own e.1 e.2 (mem_entries.1 he)).2
    have hstep : step s.writer (.sweepTick now) = some (s.sweptAt now).writer := by
      show s.writer.sweepTick now = _
      unfold CsvWriter.sweepTick
      rw [if_pos hrun, if_neg (by rw [hI.poisoned]; simp), hage, if_neg (by simp)]
      simp only [CsvWriter.sendRows, hopen, if_true, List.map_map]
      rfl
    simp only [clientStep, isOwnLabel, if_true, hstep, Option.map_some]
    rfl
  · rw [List.pairwise_map]
    exact (keys_lt s.writer.pending).filter _

end Reachable

/-- Two ticks at 300 and 80000, both records inserted. -/
def twoTicks : List ClientLabel :=
  [.tick 20 300 plainHash [], .tick 21 80000 plainHash [], .writer .trackInsert]

/-- A sweep at 70301 takes the first of two. -/
theorem sweep_exact_twoTicks : ∃ s,
    ((client plainSdk [plainPayer] none).guard Steady).Reachable s ∧
    s.writer.pending.toList.map (·.1) = [0, 1] ∧
    (expired 70301 s.writer.pending).map (·.1) = [0] ∧ Ordered s.writer.pending ∧
    clientStep plainSdk [plainPayer] none s (.writer (.sweepTick 70301)) =
      some (s.sweptAt 70301) := by
  obtain ⟨s, hr, hs⟩ := @LTS.guard_reachable_of_view _ _ _ (· = RunClient.init)
    (clientStep plainSdk [plainPayer] none) Steady _ _ rfl twoTicks
    (fun s => (s.writer.pending.toList.map (·.1), (expired 70301 s.writer.pending).map (·.1),
      s.writer.sweep, s.writer.writerOpen)) ([0, 1], [0], .running, true) rfl
  simp only [Prod.mk.injEq] at hs
  obtain ⟨hpending, hexpired, hrun, hopen⟩ := hs
  obtain ⟨hord, hsweep⟩ := sweep_exact hr
  exact ⟨s, hr, hpending, hexpired, hord, (hsweep 70301 hrun hopen).1⟩

end TpuTools.Client
