import TpuTools.Core.SortByKey
import TpuTools.L2Subscriber.MainLoop

/-!
# The emission task of a slot

The `BlockMeta` arm spawns one task for the slot's recording. It sorts the entries, finds
the tick of every position, sorts the transactions and sends a record for each
(`rate-latency-tool/src/yellowstone_subscriber.rs:274-306`). `emit` returns the records
sent and whether the task ended in a panic: of `find_tx_ticks`, of an unwrapped conversion,
or of `ticks[index]`.

* `emit_panicked_iff`: when it panics.
* `emission_isolated_iff`: one bad transaction or missing entry takes the rest of the slot
  with it, so the emission is isolated exactly when there is none.
* `emission_exact`: for a complete slot, exactly the reference records come out, whatever the
  order of arrival.
-/
namespace TpuTools.Subscriber
open Ints Chunks

/-- The sort key of a transaction. -/
def txIndex (u : TxWithTimestamps) : Nat := (u.tx.transaction.map (·.index)).getD 0

/-- mirrors rate-latency-tool/src/yellowstone_subscriber.rs:387-396 -/
def SlotRecording.collectTicks (checks : Bool) (r : SlotRecording) : Option (List Nat) :=
  findTxTicks checks (sortByKey (·.index) r.entries)

/-- mirrors rate-latency-tool/src/yellowstone_subscriber.rs:398-401 -/
def SlotRecording.sortTxs (r : SlotRecording) : List TxWithTimestamps := sortByKey txIndex r.txs

structure Emission where
  sent : List CSVRecord
  panicked : Bool
  deriving DecidableEq

/-- What the task adds to a record before it sends it. -/
def complete (record : CSVRecord) (tick count : Nat) : CSVRecord :=
  { record with tick := some tick, numTransactionInBlock := some count }

/-- The loop over the sorted transactions.
mirrors rate-latency-tool/src/yellowstone_subscriber.rs:281-304 -/
def emitTxs (known : KnownAccounts) (ticks : List Nat) (count : Nat) :
    List TxWithTimestamps → Emission
  | [] => ⟨[], false⟩
  | u :: us =>
    match tryBuildCsvRecordWithClassification known u with
    | none => ⟨[], true⟩
    | some (.error _) => emitTxs known ticks count us
    | some (.ok record) =>
      match record.indexInBlock with
      | none => emitTxs known ticks count us
      | some index =>
        match ticks[index]? with
        | none => ⟨[], true⟩
        | some tick =>
          let rest := emitTxs known ticks count us
          ⟨complete record tick count :: rest.sent, rest.panicked⟩

/-- mirrors rate-latency-tool/src/yellowstone_subscriber.rs:274-306 -/
def emit (checks : Bool) (known : KnownAccounts) (task : EmissionTask) : Emission :=
  match task.recording.collectTicks checks with
  | none => ⟨[], true⟩
  | some ticks => emitTxs known ticks task.executedTransactionCount task.recording.sortTxs

/-! ## Panics -/

/-- What one transaction needs of the tick list of length `n`. -/
def Emittable (known : KnownAccounts) (n : Nat) (u : TxWithTimestamps) : Prop :=
  HasData u → ConvertsOk known u ∧ txIndex u < n

/-- The record of an emitted transaction, up to what the task adds. -/
def BuiltFrom (known : KnownAccounts) (count : Nat) (u : TxWithTimestamps) (r : CSVRecord) : Prop :=
  ∃ record tick, tryBuildCsvRecordWithClassification known u = some (.ok record) ∧
    r = complete record tick count

theorem indexInBlock_of_tryBuild {known : KnownAccounts} {u : TxWithTimestamps} {record : CSVRecord}
    (h : tryBuildCsvRecordWithClassification known u = some (.ok record)) :
    record.indexInBlock = some (txIndex u) := by
  obtain ⟨info, statusMeta, signature, txType, hi, -, -, -, rfl⟩ := tryBuild_spec h
  simp [receivedRecord, txIndex, hi]

/-- One turn of the loop: an update without data is passed over, one that is not emittable
ends the task, and every other one is sent. -/
theorem emitTxs_cons (known : KnownAccounts) (ticks : List Nat) (count : Nat)
    (u : TxWithTimestamps) (us : List TxWithTimestamps) :
    (¬ HasData u ∧ emitTxs known ticks count (u :: us) = emitTxs known ticks count us) ∨
    (¬ Emittable known ticks.length u ∧ emitTxs known ticks count (u :: us) = ⟨[], true⟩) ∨
    (∃ record tick, tryBuildCsvRecordWithClassification known u = some (.ok record) ∧
      ticks[txIndex u]? = some tick ∧ HasData u ∧ Emittable known ticks.length u ∧
      emitTxs known ticks count (u :: us) =
        ⟨complete record tick count :: (emitTxs known ticks count us).sent,
          (emitTxs known ticks count us).panicked⟩) := by
  by_cases hd : HasData u
  · by_cases hc : ConvertsOk known u
    · obtain ⟨record, hr⟩ := tryBuild_ok_iff.2 ⟨hd, hc⟩
      have hi := indexInBlock_of_tryBuild hr
      cases ht : ticks[txIndex u]? with
      | none =>
        refine Or.inr (Or.inl ⟨fun h => ?_, by simp [emitTxs, hr, hi, ht]⟩)
        have hlt := (h hd).2
        rw [List.getElem?_eq_none_iff] at ht
        omega
      | some tick =>
        have hlt : txIndex u < ticks.length := (List.getElem?_eq_some_iff.1 ht).1
        exact Or.inr (Or.inr ⟨record, tick, hr, rfl, hd, fun _ => ⟨hc, hlt⟩,
          by simp [emitTxs, hr, hi, ht]⟩)
    · have hn := tryBuild_eq_none.2 ⟨hd, hc⟩
      exact Or.inr (Or.inl ⟨fun h => hc (h hd).1, by simp [emitTxs, hn]⟩)
  · exact Or.inl ⟨hd, by simp [emitTxs, tryBuild_of_not_hasData hd]⟩

theorem emitTxs_panicked (known : KnownAccounts) (ticks : List Nat) (count : Nat) :
    ∀ us : List TxWithTimestamps, (emitTxs known ticks count us).panicked = false ↔
      ∀ u ∈ us, Emittable known ticks.length u
  | [] => by simp [emitTxs]
  | u :: us => by
    have ih := emitTxs_panicked known ticks count us
    rw [List.forall_mem_cons]
    rcases emitTxs_cons known ticks count u us with ⟨hd, he⟩ | ⟨hn, he⟩ | ⟨_, _, _, _, _, hem, he⟩
    · rw [he, ih]
      exact ⟨fun h => ⟨fun hd' => absurd hd' hd, h⟩, fun h => h.2⟩
    · rw [he]
      exact ⟨fun h => by simp at h, fun h => absurd h.1 hn⟩
    · rw [he]
      exact ⟨fun h => ⟨hem, ih.1 h⟩, fun h => ih.2 h.2⟩

/-- Without a panic every update with data is sent, in the order of the list. -/
theorem emitTxs_sent (known : KnownAccounts) (ticks : List Nat) (count : Nat) :
    ∀ us : List TxWithTimestamps, (emitTxs known ticks count us).panicked = false →
      ∃ l : List TxWithTimestamps, l.Sublist us ∧ (∀ u ∈ l, HasData u) ∧
        List.Forall₂ (fun u r => ∃ record tick,
          tryBuildCsvRecordWithClassification known u = some (.ok record) ∧
          ticks[txIndex u]? = some tick ∧ r = complete record tick count)
          l (emitTxs known ticks count us).sent ∧
        ∀ u, HasData u → l.count u = us.count u
  | [], _ => ⟨[], .slnil, by simp, by simp [emitTxs], by simp⟩
  | u :: us, h => by
    rcases emitTxs_cons known ticks count u us with
      ⟨hd, he⟩ | ⟨hn, he⟩ | ⟨record, tick, hr, ht, hd, hem, he⟩
    · rw [he] at h ⊢
      obtain ⟨l, h1, h2, h3, h4⟩ := emitTxs_sent known ticks count us h
      refine ⟨l, h1.cons u, h2, h3, fun v hv => ?_⟩
      have hne : u ≠ v := fun heq => hd (heq ▸ hv)
      rw [h4 v hv, List.count_cons_of_ne hne]
    · rw [he] at h; simp at h
    · rw [he] at h ⊢
      obtain ⟨l, h1, h2, h3, h4⟩ := emitTxs_sent known ticks count us h
      refine ⟨u :: l, h1.cons_cons u, ?_, .cons ⟨record, tick, hr, ht, rfl⟩ h3, fun v hv => ?_⟩
      · intro v hv
        rcases List.mem_cons.1 hv with rfl | hv
        · exact hd
        · exact h2 v hv
      · simp only [List.count_cons, h4 v hv]

/-- The counts of the entries, whatever their order. -/
theorem countsOf_sorted_sum (entries : List EntryRecord) :
    (countsOf (sortByKey (·.index) entries)).sum = (countsOf entries).sum :=
  ((sortByKey_perm _ entries).map _).sum_eq

/-- Nothing the task does fails: no checked overflow of the counts, no failing conversion, and
no index that the received entries do not cover. -/
def Unhindered (checks : Bool) (known : KnownAccounts) (r : SlotRecording) : Prop :=
  (checks = true → (countsOf r.entries).sum < 2 ^ 64) ∧
    ∀ u ∈ r.txs, Emittable known ((countsOf r.entries).sum % 2 ^ 64) u

theorem emit_panicked_iff (checks : Bool) (known : KnownAccounts) (task : EmissionTask) :
    (emit checks known task).panicked = false ↔ Unhindered checks known task.recording := by
  unfold emit SlotRecording.collectTicks Unhindered
  cases ht : findTxTicks checks (sortByKey (·.index) task.recording.entries) with
  | none =>
    have h := (findTxTicks_eq_none checks).1 ht
    rw [countsOf_sorted_sum] at h
    simp only [Bool.true_eq_false, false_iff, not_and]
    intro hlt
    exact absurd (hlt h.1) (by omega)
  | some ticks =>
    have hlen := findTxTicks_length checks ht
    rw [countsOf_sorted_sum] at hlen
    have hfit : checks = true → (countsOf task.recording.entries).sum < 2 ^ 64 := by
      intro hc
      by_contra hge
      rw [← countsOf_sorted_sum] at hge
      rw [(findTxTicks_eq_none checks).2 ⟨hc, Nat.le_of_not_lt hge⟩] at ht
      cases ht
    simp only [emitTxs_panicked, hlen, SlotRecording.sortTxs, mem_sortByKey]
    exact ⟨fun h => ⟨hfit, h⟩, fun h => h.2⟩

/-! ## Isolation -/

/-- Transaction and status data, a 64-byte signature and 32-byte account keys. -/
def WellFormed (u : TxWithTimestamps) : Prop :=
  ∃ info, u.tx.transaction = some info ∧ info.statusMeta.isSome = true ∧
    info.signature.length = 64 ∧ ∀ key ∈ accountKeysOf info, key.length = 32

theorem WellFormed.hasData {u : TxWithTimestamps} (h : WellFormed u) : HasData u := by
  obtain ⟨info, hi, hm, -, -⟩ := h
  exact ⟨info, hi, hm⟩

theorem WellFormed.convertsOk {u : TxWithTimestamps} (h : WellFormed u) (known : KnownAccounts) :
    ConvertsOk known u := by
  obtain ⟨info, hi, -, hs, hk⟩ := h
  intro info' hi'
  rw [hi] at hi'; cases hi'
  exact ⟨hs, keysOk_of_length known hk⟩

/-- The task does not panic, and every well-formed update of the recording is sent as often as
it was recorded. -/
def Isolated (checks : Bool) (known : KnownAccounts) (task : EmissionTask) : Prop :=
  (emit checks known task).panicked = false ∧
    ∃ l : List TxWithTimestamps,
      List.Forall₂ (BuiltFrom known task.executedTransactionCount) l
        (emit checks known task).sent ∧
      ∀ u, WellFormed u → l.count u = task.recording.txs.count u

/-- **Isolation.** It holds exactly when nothing in the slot can go wrong: a single update with a
failing conversion, or a single index past the entries received, costs the slot. -/
theorem emission_isolated_iff (checks : Bool) (known : KnownAccounts) (task : EmissionTask) :
    Isolated checks known task ↔ Unhindered checks known task.recording := by
  constructor
  · intro h
    exact (emit_panicked_iff checks known task).1 h.1
  · intro h
    have hp := (emit_panicked_iff checks known task).2 h
    refine ⟨hp, ?_⟩
    unfold emit at hp ⊢
    cases ht : task.recording.collectTicks checks with
    | none => rw [ht] at hp; simp at hp
    | some ticks =>
      rw [ht] at hp
      obtain ⟨l, -, -, hb, hc⟩ := emitTxs_sent known ticks _ _ hp
      refine ⟨l, hb.imp fun u r hr => ?_, fun u hu => ?_⟩
      · obtain ⟨record, tick, h1, -, h3⟩ := hr
        exact ⟨record, tick, h1, h3⟩
      · rw [hc u hu.hasData]
        exact (sortByKey_perm txIndex task.recording.txs).count_eq u

/-- A slot with one transaction of index 0, none of whose entries arrived. -/
def noEntries : EmissionTask :=
  let info : SubscribeUpdateTransactionInfo :=
    ⟨List.replicate 64 0, false, some ⟨some ⟨[List.replicate 32 0]⟩⟩, some ⟨[]⟩, 0⟩
  ⟨⟨7, [⟨⟨some info, 7⟩, some 0, none⟩], []⟩, 1⟩

/-- Its only transaction is well-formed, and the task panics on `ticks[0]`. -/
theorem emission_not_isolated :
    (∀ u ∈ noEntries.recording.txs, WellFormed u) ∧ ¬ Isolated true ⟨[], [], []⟩ noEntries ∧
      ¬ Isolated false ⟨[], [], []⟩ noEntries := by
  have hw : ∀ u ∈ noEntries.recording.txs, WellFormed u := by
    intro u hu
    rw [List.mem_singleton.1 hu]
    exact ⟨_, rfl, rfl, rfl, by decide⟩
  have hn : ∀ checks, ¬ Unhindered checks ⟨[], [], []⟩ noEntries.recording := by
    rintro checks ⟨-, h⟩
    have := (h _ List.mem_cons_self (hw _ List.mem_cons_self).hasData).2
    exact absurd this (by decide)
  exact ⟨hw, fun h => hn true ((emit_panicked_iff _ _ _).1 h.1),
    fun h => hn false ((emit_panicked_iff _ _ _).1 h.1)⟩

/-! ## Complete slots -/

/-- What the record of `u` has to be: the fields of the update, the number of ticks below the
entry that covers its position, and the size of the block. -/
def IsReference (known : KnownAccounts) (entries : List EntryRecord) (count : Nat)
    (u : TxWithTimestamps) (r : CSVRecord) : Prop :=
  ∃ info statusMeta signature txType entry,
    u.tx.transaction = some info ∧ info.statusMeta = some statusMeta ∧
    Signature.tryFrom info.signature = some signature ∧ txTypeOf known info = some txType ∧
    entry ∈ entries ∧
    Covers EntryRecord.index EntryRecord.executedTransactionCount entries entry info.index ∧
    r = {
      receivedRecord u info.index signature.toText txType (memoOf statusMeta.logMessages) with
      tick := some (emptyBelow EntryRecord.index EntryRecord.executedTransactionCount entries entry)
      numTransactionInBlock := some count }

/-- Item `i` of the tick list, said without the order of the entries. -/
theorem collectTicks_getElem? (checks : Bool) {r : SlotRecording}
    (hidx : (r.entries.map (·.index)).Nodup) (hfit : (countsOf r.entries).sum < 2 ^ 64)
    {i : Nat} (hi : i < (countsOf r.entries).sum) :
    ∃ ticks entry, r.collectTicks checks = some ticks ∧ entry ∈ r.entries ∧
      Covers EntryRecord.index EntryRecord.executedTransactionCount r.entries entry i ∧
      ticks[i]? = some
        (emptyBelow EntryRecord.index EntryRecord.executedTransactionCount r.entries entry) := by
  obtain ⟨entry, he, hc, heq⟩ :=
    emptyBefore_sortByKey EntryRecord.index EntryRecord.executedTransactionCount hidx hi
  have hsum := countsOf_sorted_sum r.entries
  refine ⟨_, entry, findTxTicks_spec checks (by rw [hsum]; exact hfit), he, hc, ?_⟩
  rw [List.getElem?_map, List.getElem?_range (by rw [hsum]; exact hi), Option.map_some, ← heq]
  rfl

/-- **Emission of a recording.** When the entries cover every recorded position, the records
are the references, in the order of the positions. -/
theorem emit_reference (checks : Bool) (known : KnownAccounts) (task : EmissionTask)
    (hidx : (task.recording.entries.map (·.index)).Nodup)
    (hfit : (countsOf task.recording.entries).sum < 2 ^ 64)
    (htx : ∀ u ∈ task.recording.txs,
      WellFormed u ∧ txIndex u < (countsOf task.recording.entries).sum) :
    (emit checks known task).panicked = false ∧
      List.Forall₂ (IsReference known task.recording.entries task.executedTransactionCount)
        task.recording.sortTxs (emit checks known task).sent := by
  have hp : (emit checks known task).panicked = false := by
    refine (emit_panicked_iff checks known task).2 ⟨fun _ => hfit, fun u hu _ => ?_⟩
    rw [Nat.mod_eq_of_lt hfit]
    exact ⟨(htx u hu).1.convertsOk known, (htx u hu).2⟩
  refine ⟨hp, ?_⟩
  have hem : emit checks known task = match task.recording.collectTicks checks with
    | none => ⟨[], true⟩
    | some ticks => emitTxs known ticks task.executedTransactionCount task.recording.sortTxs := rfl
  cases ht : task.recording.collectTicks checks with
  | none => rw [hem, ht] at hp; simp at hp
  | some ticks =>
    rw [ht] at hem
    simp only at hem
    rw [hem] at hp ⊢
    obtain ⟨l, hsub, -, hb, hc⟩ := emitTxs_sent known ticks _ _ hp
    -- everything sorted is well-formed, so nothing was passed over
    have hl : l = task.recording.sortTxs := by
      have hperm : l.Perm task.recording.sortTxs := by
        rw [List.perm_iff_count]
        intro u
        by_cases hu : HasData u
        · exact hc u hu
        · have hno : u ∉ task.recording.sortTxs := fun hmem =>
            hu (htx u (mem_sortByKey.1 hmem)).1.hasData
          rw [List.count_eq_zero_of_not_mem hno,
            List.count_eq_zero_of_not_mem fun hmem => hno (hsub.subset hmem)]
      exact hsub.eq_of_length hperm.length_eq
    subst hl
    have hall := (List.forall₂_and_left _ _).2
      ⟨fun u (hu : u ∈ task.recording.sortTxs) => mem_sortByKey.1 hu, hb⟩
    refine hall.imp fun u r hur => ?_
    obtain ⟨hmem, record, tick, hr, htick, heq⟩ := hur
    obtain ⟨ticks', entry, ht', he, hcov, hval⟩ :=
      collectTicks_getElem? checks hidx hfit (htx u hmem).2
    rw [ht] at ht'; cases ht'
    obtain ⟨info, statusMeta, signature, txType, hi, hm, hs, hty, rfl⟩ := tryBuild_spec hr
    have hinfo : txIndex u = info.index := by simp [txIndex, hi]
    rw [htick] at hval
    cases hval
    rw [hinfo] at hcov
    exact ⟨info, statusMeta, signature, txType, entry, hi, hm, hs, hty, he, hcov, heq⟩

/-! ## The order of arrival -/

/-- Without the reading of the clock on arrival. -/
def TxWithTimestamps.forgetClock (u : TxWithTimestamps) : TxWithTimestamps :=
  { u with receivedTimestamp := none }

theorem forgetClock_eq_iff {u v : TxWithTimestamps} : u.forgetClock = v.forgetClock ↔
    u.tx = v.tx ∧ u.receivedSubscrTimestamp = v.receivedSubscrTimestamp := by
  cases u; cases v
  simp [TxWithTimestamps.forgetClock]

/-- Without the reading of the clock on arrival. -/
def forgetClock (r : CSVRecord) : CSVRecord := { r with receivedTimestamp := none }

/-- The messages about slot `s`, without the clock. -/
def about (s : Nat) (us : List Arrival) : List SubscribeUpdate :=
  (us.filter fun u => slotOf u = some s).map (·.2)

theorem closes_other {s : Nat} {u : Arrival} (h : slotOf u ≠ some s) : closes s u = false := by
  by_contra hc
  have hr := recorderStep_other h (some ⟨s, [], []⟩)
  simp [recorderStep, hc] at hr

theorem closes_about (s : Nat) (us : List Arrival) :
    (∀ u ∈ us, closes s u = false) ↔ ∀ m ∈ about s us, closes s (0, m) = false := by
  unfold about
  constructor
  · intro h m hm
    obtain ⟨u, hu, rfl⟩ := List.mem_map.1 hm
    exact h u (List.mem_filter.1 hu).1
  · intro h u hu
    by_cases hs : slotOf u = some s
    · exact h u.2 (List.mem_map_of_mem (List.mem_filter.2 ⟨hu, by simpa using hs⟩))
    · exact closes_other hs

theorem entryIn_other {s : Nat} {u : Arrival} (h : slotOf u ≠ some s) :
    entryIn s u = none ∧ txIn s u = none := by
  unfold slotOf at h
  unfold entryIn txIn
  cases hu : u.2.updateOneof with
  | none => simp
  | some x => cases x <;> simp only [hu, ne_eq, Option.some.injEq] at h <;> simp [h]

theorem entries_about (s : Nat) (us : List Arrival) :
    us.filterMap (entryIn s) = (about s us).filterMap fun m => entryIn s (0, m) := by
  induction us with
  | nil => rfl
  | cons u us ih =>
    by_cases hs : slotOf u = some s
    · have hu : entryIn s (0, u.2) = entryIn s u := rfl
      simp only [about, List.filter_cons, hs, decide_true, if_true, List.map_cons,
        List.filterMap_cons, hu]
      rw [ih]; rfl
    · simp only [about, List.filter_cons, hs, decide_false, Bool.false_eq_true, if_false,
        List.filterMap_cons, (entryIn_other hs).1]
      exact ih

theorem txs_about (s : Nat) (us : List Arrival) :
    (us.filterMap (txIn s)).map (·.forgetClock) =
      (about s us).filterMap fun m => (txIn s (0, m)).map (·.forgetClock) := by
  induction us with
  | nil => rfl
  | cons u us ih =>
    by_cases hs : slotOf u = some s
    · have hu : (txIn s (0, u.2)).map (·.forgetClock) = (txIn s u).map (·.forgetClock) := by
        unfold txIn
        cases u.2.updateOneof with
        | none => rfl
        | some x =>
          cases x with
          | transaction tx => simp only; split <;> rfl
          | _ => rfl
      simp only [about, List.filter_cons, hs, decide_true, if_true, List.map_cons,
        List.filterMap_cons, hu]
      cases htx : txIn s u with
      | none => simp only [Option.map_none]; exact ih
      | some v => simp only [Option.map_some, List.map_cons]; rw [ih]; rfl
    · simp only [about, List.filter_cons, hs, decide_false, Bool.false_eq_true, if_false,
        List.filterMap_cons, (entryIn_other hs).2]
      exact ih

/-- A complete slot, from just after its opening to just before its block meta: nothing closes
it, its entries have distinct indexes and `n` transactions in total, and its transactions are
well-formed, with distinct indexes below `n`. Other slots do as they like. -/
structure CompleteSlot (s : Nat) (b : List Arrival) (n : Nat) : Prop where
  open_ : ∀ v ∈ b, closes s v = false
  entries : ((b.filterMap (entryIn s)).map (·.index)).Nodup
  counts : (countsOf (b.filterMap (entryIn s))).sum = n
  fits : n < 2 ^ 64
  txs : ∀ u ∈ b.filterMap (txIn s), WellFormed u ∧ txIndex u < n
  indexes : ((b.filterMap (txIn s)).map txIndex).Nodup

theorem CompleteSlot.perm {s n : Nat} {b b' : List Arrival} (h : CompleteSlot s b n)
    (hp : (about s b).Perm (about s b')) : CompleteSlot s b' n := by
  have he : (b.filterMap (entryIn s)).Perm (b'.filterMap (entryIn s)) := by
    rw [entries_about, entries_about]
    exact hp.filterMap _
  have ht : ((b.filterMap (txIn s)).map (·.forgetClock)).Perm
      ((b'.filterMap (txIn s)).map (·.forgetClock)) := by
    rw [txs_about, txs_about]
    exact hp.filterMap _
  refine ⟨?_, ?_, ?_, h.fits, ?_, ?_⟩
  · rw [closes_about]
    intro m hm
    exact (closes_about s b).1 h.open_ m (hp.mem_iff.2 hm)
  · exact (he.map _).nodup_iff.1 h.entries
  · rw [← h.counts]
    exact ((he.map _).sum_eq).symm
  · intro u hu
    obtain ⟨v, hv, hvu⟩ := List.mem_map.1 (ht.mem_iff.2 (List.mem_map_of_mem hu))
    have htx := (forgetClock_eq_iff.1 hvu).1
    have hv' := h.txs v hv
    unfold WellFormed txIndex at hv' ⊢
    rwa [htx] at hv'
  · have hm : ∀ l : List TxWithTimestamps,
        l.map txIndex = (l.map (·.forgetClock)).map txIndex := by
      intro l; rw [List.map_map]; rfl
    have hi := h.indexes
    rw [hm] at hi ⊢
    exact (ht.map _).nodup_iff.1 hi

/-- The reference depends on the clock of the arrival only in its reading of it. -/
theorem IsReference.forgetClock_eq {known : KnownAccounts} {entries entries' : List EntryRecord}
    {n : Nat} {u u' : TxWithTimestamps} {r r' : CSVRecord}
    (hnd : (entries.map (·.index)).Nodup) (hp : entries.Perm entries')
    (h : IsReference known entries n u r) (h' : IsReference known entries' n u' r')
    (hu : u.forgetClock = u'.forgetClock) : forgetClock r = forgetClock r' := by
  obtain ⟨info, statusMeta, signature, txType, entry, hi, hm, hs, ht, he, hc, rfl⟩ := h
  obtain ⟨info', statusMeta', signature', txType', entry', hi', hm', hs', ht', he', hc', rfl⟩ := h'
  obtain ⟨htx, hsub⟩ := forgetClock_eq_iff.1 hu
  rw [← htx, hi] at hi'
  cases hi'
  rw [hm] at hm'; cases hm'
  rw [hs] at hs'; cases hs'
  rw [ht] at ht'; cases ht'
  rw [← covers_perm _ _ hp] at hc'
  have hee : entry = entry' := covers_unique _ _ hnd he (hp.mem_iff.2 he') hc hc'
  subst hee
  simp only [forgetClock, receivedRecord, htx, hsub, emptyBelow_perm _ _ hp]

/-- Records of the same transactions in the same order differ in the clock alone. -/
theorem forall₂_forgetClock {known : KnownAccounts} {entries entries' : List EntryRecord} {n : Nat}
    (hnd : (entries.map (·.index)).Nodup) (hp : entries.Perm entries') :
    ∀ {l : List TxWithTimestamps} {rs : List CSVRecord},
      List.Forall₂ (IsReference known entries n) l rs →
      ∀ {l' : List TxWithTimestamps} {rs' : List CSVRecord},
        List.Forall₂ (IsReference known entries' n) l' rs' →
        l.map (·.forgetClock) = l'.map (·.forgetClock) →
          rs.map forgetClock = rs'.map forgetClock
  | _, _, .nil, _, _, .nil, _ => rfl
  | _, _, .nil, _, _, .cons _ _, h => by simp at h
  | _, _, .cons _ _, _, _, .nil, h => by simp at h
  | _, _, .cons hr ht, _, _, .cons hr' ht', h => by
    simp only [List.map_cons, List.cons.injEq] at h
    rw [List.map_cons, List.map_cons, hr.forgetClock_eq hnd hp hr' h.1,
      forall₂_forgetClock hnd hp ht ht' h.2]

/-- The recording of a complete slot and what its task sends. -/
theorem emit_complete (checks : Bool) (known : KnownAccounts) {s n : Nat} {b : List Arrival}
    (hb : CompleteSlot s b n) :
    let task : EmissionTask := ⟨⟨s, b.filterMap (txIn s), b.filterMap (entryIn s)⟩, n⟩
    (emit checks known task).panicked = false ∧
      List.Forall₂ (IsReference known (b.filterMap (entryIn s)) n)
        (sortByKey txIndex (b.filterMap (txIn s))) (emit checks known task).sent := by
  intro task
  refine emit_reference checks known task hb.entries ?_ ?_
  · simpa only [task, hb.counts] using hb.fits
  · simpa only [task, hb.counts] using hb.txs

/-- **Complete slots.** The block meta spawns one task, which does not panic and sends exactly
the reference records of the slot's transactions, by increasing index; and any other order of
arrival of the same messages gives the same records, up to the readings of the clock. -/
theorem emission_exact (checks : Bool) (known : KnownAccounts) {s n : Nat} {a b : List Arrival}
    {o : Arrival} (ha : ¬ OpenAfter s a) (ho : opens s o = true) (hb : CompleteSlot s b n)
    (now : Nat) {msg : SubscribeUpdate} {blockMeta : SubscribeUpdateBlockMeta}
    (hm : msg.updateOneof = some (.blockMeta blockMeta)) (hs : blockMeta.slot = s)
    (hn : blockMeta.executedTransactionCount = n) :
    ∃ task, (process (a ++ o :: b ++ [(now, msg)])).spawned =
        (process (a ++ o :: b)).spawned ++ [task] ∧
      (emit checks known task).panicked = false ∧
      (∃ l : List TxWithTimestamps, l.Perm (b.filterMap (txIn s)) ∧
        (l.Pairwise fun u v => txIndex u < txIndex v) ∧
        List.Forall₂ (IsReference known (b.filterMap (entryIn s)) n) l
          (emit checks known task).sent) ∧
      ∀ (a' b' : List Arrival) (o' : Arrival) (now' : Nat), ¬ OpenAfter s a' →
        opens s o' = true → (about s b).Perm (about s b') →
        ∃ task', (process (a' ++ o' :: b' ++ [(now', msg)])).spawned =
            (process (a' ++ o' :: b')).spawned ++ [task'] ∧
          (emit checks known task').panicked = false ∧
          (emit checks known task').sent.map forgetClock =
            (emit checks known task).sent.map forgetClock := by
  have hspawn : ∀ (a b : List Arrival) (o : Arrival) (now : Nat), ¬ OpenAfter s a →
      opens s o = true → (∀ v ∈ b, closes s v = false) →
        (process (a ++ o :: b ++ [(now, msg)])).spawned = (process (a ++ o :: b)).spawned ++
          [⟨⟨s, b.filterMap (txIn s), b.filterMap (entryIn s)⟩, n⟩] := by
    intro a b o now ha ho hb
    rw [process_spawned]
    simp only [hm, hs, hn, recorder_eq ho ha hb, Option.map_some, Option.toList_some]
  obtain ⟨hp, hall⟩ := emit_complete checks known hb
  refine ⟨_, hspawn a b o now ha ho hb.open_, hp,
    ⟨_, sortByKey_perm txIndex _, sortByKey_lt hb.indexes, hall⟩, ?_⟩
  intro a' b' o' now' ha' ho' hperm
  have hb' := hb.perm hperm
  obtain ⟨hp', hall'⟩ := emit_complete checks known hb'
  refine ⟨_, hspawn a' b' o' now' ha' ho' hb'.open_, hp', ?_⟩
  refine (forall₂_forgetClock hb.entries ?_ hall hall' ?_).symm
  · rw [entries_about, entries_about]
    exact hperm.filterMap _
  · -- both are the same transactions, sorted by distinct indexes
    have hkey : ∀ l : List TxWithTimestamps, (l.Pairwise fun u v => txIndex u < txIndex v) →
        (l.map (·.forgetClock)).Pairwise fun u v => txIndex u < txIndex v := by
      intro l hl
      exact List.pairwise_map.2 hl
    refine @eq_of_perm_of_lt _ _ _ txIndex _ _ ?_ (hkey _ (sortByKey_lt hb.indexes))
      (hkey _ (sortByKey_lt hb'.indexes))
    refine ((sortByKey_perm txIndex _).map _).trans (.trans ?_ ((sortByKey_perm txIndex _).map _).symm)
    rw [txs_about, txs_about]
    exact hperm.filterMap _

/-- Two transactions and a tick, arriving the wrong way round. -/
def reordered : List Arrival :=
  let tx (index : Nat) : SubscribeUpdate :=
    ⟨none, some (.transaction ⟨some ⟨List.replicate 64 0, false,
      some ⟨some ⟨[List.replicate 32 0]⟩⟩, some ⟨[]⟩, index⟩, 5⟩)⟩
  [(1, tx 1), (2, ⟨none, some (.entry ⟨5, 1, 2⟩)⟩), (3, ⟨none, some (.entry ⟨5, 0, 0⟩)⟩), (4, tx 0)]

theorem reordered_completeSlot : CompleteSlot 5 reordered 2 where
  open_ := by decide
  entries := by decide
  counts := by decide
  fits := by decide
  txs := by
    intro u hu
    have hu' : u ∈ reordered.filterMap (txIn 5) := hu
    simp only [reordered, txIn, List.filterMap_cons, List.filterMap_nil, if_true,
      List.mem_cons, List.not_mem_nil, or_false] at hu'
    rcases hu' with rfl | rfl
    · exact ⟨⟨_, rfl, rfl, rfl, by decide⟩, by decide⟩
    · exact ⟨⟨_, rfl, rfl, rfl, by decide⟩, by decide⟩
  indexes := by decide

theorem emission_reordered : ∃ task,
    (process ([] ++ (0, ⟨none, some (.slot ⟨5, 3⟩)⟩) :: reordered ++
        [(9, ⟨none, some (.blockMeta ⟨5, 2, 2⟩)⟩)])).spawned =
      (process ([] ++ (0, ⟨none, some (.slot ⟨5, 3⟩)⟩) :: reordered)).spawned ++ [task] ∧
    (emit true ⟨[], [], []⟩ task).panicked = false := by
  have ho : opens 5 (0, ⟨none, some (.slot ⟨5, 3⟩)⟩) = true := by decide
  have hm : SubscribeUpdate.updateOneof ⟨none, some (.blockMeta ⟨5, 2, 2⟩)⟩ =
    some (.blockMeta ⟨5, 2, 2⟩) := rfl
  obtain ⟨task, h1, h2, -⟩ :=
    emission_exact true ⟨[], [], []⟩ (openAfter_nil 5) ho reordered_completeSlot 9 hm rfl rfl
  exact ⟨task, h1, h2⟩

end TpuTools.Subscriber
