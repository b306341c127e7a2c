import Mathlib.Data.List.Basic
import Mathlib.Data.Nat.Basic
import TpuTools.Core.LTS
import TpuTools.L1Data.CsvRecord

/-!
# `run_csv_writer` (`rate-latency-tool/src/csv_writer.rs`)

Four tasks share the map of pending transactions: the block task joins block records with
pending ones, the expiry sweep writes old pending records, the tracker task inserts sent
records and dumps the map on cancellation, and the writer task writes the rows the other
three send it.

A step is what a task does between two points where another task can interfere. A task
awaits only its channels and its ticker, and sees the cancellation only there; the map is
behind a mutex, so what happens under the lock is one step: a group of insertions, a whole
sweep, the dump. Sending a row to the unbounded writer channel never waits.
The clock and the ticker are free: a sweep may happen at any time, with any reading `now`.

Two things are coarser than in the source. The block task sends its row after it has released
the lock, and here the removal and the send are one step, so a row that another task sends in
between counts as sent behind it. And a sweep or a dump finds the writer channel open or closed
as a whole, not row by row.

A failing `unwrap` ends its task, and under the lock it poisons the map. A receiver is gone
once its task has ended; `sendTracked` and `sendBlock` are the sends that succeed.

* `step`: the steps of all four tasks, and of the outside world.
* `insertAll_get`, `insertAll_mem`, `sweepLoop_isPrefix`, `getElem?_erase_ids`: what the loops
  over the map do to it.
-/
namespace TpuTools.Writer

/-- mirrors rate-latency-tool/src/csv_writer.rs:109-114 -/
def MAX_TX_AGE_MS : Nat := (150 + 25) * 400

/-- mirrors rate-latency-tool/src/csv_writer.rs:116-117 -/
def READ_AT_ONCE : Nat := 16

/-- mirrors rate-latency-tool/src/csv_writer.rs:118-119 -/
def READ_AT_ONCE_FOR_CSV : Nat := 128

/-- mirrors rate-latency-tool/src/run_client.rs:38-39 -/
def CSV_RECORD_CHANNEL_SIZE : Nat := 1024

abbrev Pending := Std.TreeMap Nat CSVRecord

/-- The task a row comes from. -/
inductive Source where
  | block
  | sweep
  | dump
  deriving DecidableEq, Repr

/-- `running rest`: in the loop, `rest` being what is left of `complete_records`; at
`recv_many` when it is empty. -/
inductive BlockPc where
  | running (completeRecords : List CSVRecord)
  | closed
  | cancelled
  | panicked
  deriving DecidableEq

inductive SweepPc where
  | running
  | cancelled
  | panicked
  deriving DecidableEq

/-- `cancelled`: ended by the cancellation, after the dump. -/
inductive TrackPc where
  | running
  | closed
  | cancelled
  | panicked
  deriving DecidableEq

/-- `writing []`: all rows of the batch written, about to flush. -/
inductive WriterPc where
  | receiving
  | writing (completeRecords : List (List String))
  | closed
  | failed
  deriving DecidableEq

structure CsvWriter where
  pending : Pending
  poisoned : Bool
  blockChan : List CSVRecord
  /-- some sender of block records is alive -/
  blockOpen : Bool
  trackChan : List CSVRecord
  trackOpen : Bool
  cancelled : Bool
  block : BlockPc
  sweep : SweepPc
  track : TrackPc
  writer : WriterPc
  writerChan : List (List String)
  /-- written to the csv writer, not flushed -/
  buffered : List (List String)
  /-- as of the last flush -/
  file : List (List String)
  /-- ghost: what the tracker channel accepted -/
  sent : List CSVRecord
  /-- ghost: what the block channel accepted -/
  received : List CSVRecord
  /-- ghost: what was inserted into the map -/
  inserted : List CSVRecord
  /-- ghost: the handled block records, each with the entry it removed -/
  joined : List (CSVRecord × Option CSVRecord)
  /-- ghost: the rows the writer channel accepted -/
  rows : List (Source × CSVRecord)

/-- After the header is written and before the tasks start. The csv writer keeps the header in
its buffer until its first flush or its end; here it is in the file from the start.
mirrors rate-latency-tool/src/csv_writer.rs:126-141 -/
def CsvWriter.init : CsvWriter where
  pending := ∅
  poisoned := false
  blockChan := []
  blockOpen := true
  trackChan := []
  trackOpen := true
  cancelled := false
  block := .running []
  sweep := .running
  track := .running
  writer := .receiving
  writerChan := []
  buffered := []
  file := [CSVRecord.fieldNames]
  sent := []
  received := []
  inserted := []
  joined := []
  rows := []

namespace CsvWriter

variable (s : CsvWriter)

/-- The receiver of the writer channel is alive. -/
def writerOpen : Bool :=
  match s.writer with
  | .receiving | .writing _ => true
  | .closed | .failed => false

def blockDone : Bool :=
  match s.block with
  | .running _ => false
  | _ => true

def sweepDone : Bool := s.sweep != .running

def trackDone : Bool := s.track != .running

/-- All four tasks have ended: `tracker.wait()` returns.
mirrors rate-latency-tool/src/csv_writer.rs:273-278 -/
def finished : Bool := s.blockDone && s.sweepDone && s.trackDone && !s.writerOpen

/-- `writer_sender.send(..)` of each record; on a closed channel it only logs. -/
def sendRows (source : Source) (records : List CSVRecord) : CsvWriter :=
  { s with
    writerChan := s.writerChan ++ if s.writerOpen then records.map (·.asCsvRecord) else []
    rows := s.rows ++ if s.writerOpen then records.map (source, ·) else [] }

/-! ## The outside world -/

/-- `tx_tracker_sender.send(record)` -/
def sendTracked (record : CSVRecord) : Option CsvWriter :=
  if s.trackOpen ∧ s.track = .running then
    some { s with trackChan := s.trackChan ++ [record], sent := s.sent ++ [record] }
  else none

/-- `block_tx_sender.send(record).await`; it waits while the channel is full. -/
def sendBlock (record : CSVRecord) : Option CsvWriter :=
  if s.blockOpen ∧ ¬ s.blockDone ∧ s.blockChan.length < CSV_RECORD_CHANNEL_SIZE then
    some { s with blockChan := s.blockChan ++ [record], received := s.received ++ [record] }
  else none

/-! ## The block task -/

/-- mirrors rate-latency-tool/src/csv_writer.rs:152-155 -/
def blockTake : Option CsvWriter :=
  if s.block = .running [] ∧ s.blockChan ≠ [] then
    some { s with
      block := .running (s.blockChan.take READ_AT_ONCE)
      blockChan := s.blockChan.drop READ_AT_ONCE }
  else none

end CsvWriter

/-- A block record takes over the send status of the entry it removed. -/
def joinRow (record : CSVRecord) : Option CSVRecord → CSVRecord
  | some pending => { record with txStatus := pending.txStatus }
  | none => record

namespace CsvWriter

variable (s : CsvWriter)

/-- The entry under the id of `record`. -/
def lookup (record : CSVRecord) : Option CSVRecord :=
  record.transactionId.bind fun id => s.pending[id]?

def removeId (record : CSVRecord) : Pending :=
  match record.transactionId with
  | some id => s.pending.erase id
  | none => s.pending

/-- The join of one record.
mirrors rate-latency-tool/src/csv_writer.rs:162-171 -/
def join (record : CSVRecord) (rest : List CSVRecord) : CsvWriter :=
  sendRows
    { s with
      block := .running rest
      pending := s.removeId record
      joined := s.joined ++ [(record, s.lookup record)] }
    .block [joinRow record (s.lookup record)]

/-- One turn of the inner loop; the lock is only taken when the record has an id.
mirrors rate-latency-tool/src/csv_writer.rs:161-172 -/
def blockHandle : Option CsvWriter :=
  match s.block with
  | .running (record :: rest) =>
    if record.transactionId.isSome ∧ s.poisoned then some { s with block := .panicked }
    else some (s.join record rest)
  | _ => none

/-- mirrors rate-latency-tool/src/csv_writer.rs:156-159 -/
def blockClosed : Option CsvWriter :=
  if s.block = .running [] ∧ s.blockChan = [] ∧ s.blockOpen = false then
    some { s with block := .closed }
  else none

/-- mirrors rate-latency-tool/src/csv_writer.rs:175 -/
def blockCancelled : Option CsvWriter :=
  if s.block = .running [] ∧ s.cancelled then some { s with block := .cancelled } else none

/-! ## The expiry sweep -/

end CsvWriter

/-- The loop over the map: the entries sent to the writer, and whether an `unwrap` failed.
It ends at the first entry that is young enough or that the writer does not take.
mirrors rate-latency-tool/src/csv_writer.rs:192-206 -/
def sweepLoop (writerOpen : Bool) (now : Nat) : List (Nat × CSVRecord) →
    List (Nat × CSVRecord) × Bool
  | [] => ([], false)
  | (id, rec) :: rest =>
    match rec.sentTimestamp with
    | none => ([], true)
    | some sentTimestamp =>
      if now - sentTimestamp > MAX_TX_AGE_MS ∧ writerOpen then
        ((id, rec) :: (sweepLoop writerOpen now rest).1, (sweepLoop writerOpen now rest).2)
      else ([], false)

namespace CsvWriter

variable (s : CsvWriter)

/-- The entries a sweep sends, and whether it panics. -/
def overAge (now : Nat) : List (Nat × CSVRecord) × Bool :=
  sweepLoop s.writerOpen now s.pending.toList

/-- One tick; a failing `unwrap` comes before the removals.
mirrors rate-latency-tool/src/csv_writer.rs:187-209 -/
def sweepTick (now : Nat) : Option CsvWriter :=
  if s.sweep = .running then
    if s.poisoned then some { s with sweep := .panicked }
    else if (s.overAge now).2 then
      some { s.sendRows .sweep ((s.overAge now).1.map (·.2)) with sweep := .panicked, poisoned := true }
    else
      some { s.sendRows .sweep ((s.overAge now).1.map (·.2)) with
        pending := ((s.overAge now).1.map (·.1)).foldl (·.erase ·) s.pending }
  else none

/-- mirrors rate-latency-tool/src/csv_writer.rs:211 -/
def sweepCancelled : Option CsvWriter :=
  if s.sweep = .running ∧ s.cancelled then some { s with sweep := .cancelled } else none

/-! ## The tracker task -/

end CsvWriter

/-- The insertions of a group, up to a record without an id.
mirrors rate-latency-tool/src/csv_writer.rs:231-234 -/
def insertAll (pending : Pending) : List CSVRecord → Pending × List CSVRecord × Bool
  | [] => (pending, [], false)
  | record :: rest =>
    match record.transactionId with
    | none => (pending, [], true)
    | some id =>
      let out := insertAll (pending.insert id record) rest
      (out.1, record :: out.2.1, out.2.2)

namespace CsvWriter

variable (s : CsvWriter)

/-- The group `recv_many` takes. -/
def group : List CSVRecord := s.trackChan.take READ_AT_ONCE

/-- mirrors rate-latency-tool/src/csv_writer.rs:222-235 -/
def trackInsert : Option CsvWriter :=
  if s.track = .running ∧ s.trackChan ≠ [] then
    if s.poisoned then
      some { s with trackChan := s.trackChan.drop READ_AT_ONCE, track := .panicked }
    else
      let out := insertAll s.pending s.group
      some { s with
        trackChan := s.trackChan.drop READ_AT_ONCE
        pending := out.1
        inserted := s.inserted ++ out.2.1
        track := if out.2.2 then .panicked else .running
        poisoned := out.2.2 }
  else none

/-- mirrors rate-latency-tool/src/csv_writer.rs:224-227 -/
def trackClosed : Option CsvWriter :=
  if s.track = .running ∧ s.trackChan = [] ∧ s.trackOpen = false then
    some { s with track := .closed }
  else none

/-- The dump. The entries stay in the map.
mirrors rate-latency-tool/src/csv_writer.rs:236-247 -/
def trackCancelled : Option CsvWriter :=
  if s.track = .running ∧ s.cancelled then
    if s.poisoned then some { s with track := .panicked }
    else some { s.sendRows .dump (s.pending.toList.map (·.2)) with track := .cancelled }
  else none

/-! ## The writer task -/

/-- mirrors rate-latency-tool/src/csv_writer.rs:254-256 -/
def writerTake : Option CsvWriter :=
  if s.writer = .receiving ∧ s.writerChan ≠ [] then
    some { s with
      writer := .writing (s.writerChan.take READ_AT_ONCE_FOR_CSV)
      writerChan := s.writerChan.drop READ_AT_ONCE_FOR_CSV }
  else none

/-- A row that is not written is left out as a whole; the csv writer may keep a part of it.
mirrors rate-latency-tool/src/csv_writer.rs:261-265 -/
def writeRow (ok : Bool) : Option CsvWriter :=
  match s.writer with
  | .writing (row :: rest) =>
    some { s with
      writer := .writing rest
      buffered := if ok then s.buffered ++ [row] else s.buffered }
  | _ => none

/-- mirrors rate-latency-tool/src/csv_writer.rs:266-269 -/
def flush (ok : Bool) : Option CsvWriter :=
  match s.writer with
  | .writing [] =>
    if ok then some { s with writer := .receiving, file := s.file ++ s.buffered, buffered := [] }
    else some { s with writer := .failed }
  | _ => none

/-- The channel is closed once the other three tasks have dropped their senders.
mirrors rate-latency-tool/src/csv_writer.rs:257-260 -/
def writerClosed : Option CsvWriter :=
  if s.writer = .receiving ∧ s.writerChan = [] ∧ s.blockDone ∧ s.sweepDone ∧ s.trackDone then
    some { s with writer := .closed }
  else none

end CsvWriter

inductive Label where
  | sendTracked (record : CSVRecord)
  | dropTracker
  | sendBlock (record : CSVRecord)
  | dropBlock
  | cancel
  | blockTake
  | blockHandle
  | blockClosed
  | blockCancelled
  | sweepTick (now : Nat)
  | sweepCancelled
  | trackInsert
  | trackClosed
  | trackCancelled
  | writerTake
  | writeRow (ok : Bool)
  | flush (ok : Bool)
  | writerClosed
  deriving DecidableEq

def step (s : CsvWriter) : Label → Option CsvWriter
  | .sendTracked record => s.sendTracked record
  | .dropTracker => some { s with trackOpen := false }
  | .sendBlock record => s.sendBlock record
  | .dropBlock => some { s with blockOpen := false }
  | .cancel => some { s with cancelled := true }
  | .blockTake => s.blockTake
  | .blockHandle => s.blockHandle
  | .blockClosed => s.blockClosed
  | .blockCancelled => s.blockCancelled
  | .sweepTick now => s.sweepTick now
  | .sweepCancelled => s.sweepCancelled
  | .trackInsert => s.trackInsert
  | .trackClosed => s.trackClosed
  | .trackCancelled => s.trackCancelled
  | .writerTake => s.writerTake
  | .writeRow ok => s.writeRow ok
  | .flush ok => s.flush ok
  | .writerClosed => s.writerClosed

def lts : LTS CsvWriter Label := LTS.ofFn (· = .init) step

theorem reachable_of_labels {α : Type} (ls : List Label) (view : CsvWriter → α) (a : α)
    (h : (LTS.exec step .init ls).map view = some a) : ∃ s, lts.Reachable s ∧ view s = a :=
  @LTS.reachable_of_view _ _ _ (· = CsvWriter.init) step _ rfl ls view a h

/-! ## The map -/

section Map

variable {m : Pending} {i : Nat} {p : CSVRecord}

theorem get_erase (m : Pending) (k i : Nat) :
    (m.erase k)[i]? = if k = i then none else m[i]? := by
  rw [Std.TreeMap.getElem?_erase]
  simp only [compare_eq_iff_eq]

theorem get_insert (m : Pending) (k i : Nat) (v : CSVRecord) :
    (m.insert k v)[i]? = if k = i then some v else m[i]? := by
  rw [Std.TreeMap.getElem?_insert]
  simp only [compare_eq_iff_eq]

theorem getElem?_erase_ids (ids : List Nat) (m : Pending) (i : Nat) :
    (ids.foldl (·.erase ·) m)[i]? = if i ∈ ids then none else m[i]? := by
  induction ids generalizing m with
  | nil => simp
  | cons id ids ih =>
    rw [List.foldl_cons, ih, get_erase]
    by_cases hi : i ∈ ids
    · simp [hi]
    · by_cases he : id = i
      · simp [he]
      · simp [hi, he, Ne.symm he]

theorem mem_entries : (i, p) ∈ m.toList ↔ m[i]? = some p :=
  Std.TreeMap.mem_toList_iff_getElem?_eq_some

theorem entries_keys_nodup (m : Pending) : (m.toList.map (·.1)).Nodup := by
  refine List.pairwise_map.2 ((Std.TreeMap.ordered_keys_toList (t := m)).imp fun h => ?_)
  rw [compare_lt_iff_lt] at h
  exact Nat.ne_of_lt h

theorem sweepLoop_isPrefix (writerOpen : Bool) (now : Nat) : ∀ l : List (Nat × CSVRecord),
    (sweepLoop writerOpen now l).1 <+: l
  | [] => List.nil_prefix
  | (id, rec) :: rest => by
    unfold sweepLoop
    split
    · exact List.nil_prefix
    · split
      · exact List.cons_prefix_cons.2 ⟨rfl, sweepLoop_isPrefix writerOpen now rest⟩
      · exact List.nil_prefix

theorem sweepLoop_panic {writerOpen : Bool} {now : Nat} : ∀ {l : List (Nat × CSVRecord)},
    (sweepLoop writerOpen now l).2 = true → ∃ e ∈ l, e.2.sentTimestamp = none
  | [], h => by simp [sweepLoop] at h
  | (id, rec) :: rest, h => by
    unfold sweepLoop at h
    split at h
    · rename_i hts
      exact ⟨_, List.mem_cons_self, hts⟩
    · split at h
      · obtain ⟨e, he, hts⟩ := sweepLoop_panic h
        exact ⟨e, List.mem_cons_of_mem _ he, hts⟩
      · simp at h

theorem insertAll_isPrefix : ∀ (l : List CSVRecord) (m : Pending), (insertAll m l).2.1 <+: l
  | [], _ => List.nil_prefix
  | record :: rest, m => by
    unfold insertAll
    split
    · exact List.nil_prefix
    · exact List.cons_prefix_cons.2 ⟨rfl, insertAll_isPrefix rest _⟩

/-- A group whose records all have ids is inserted as a whole. -/
theorem insertAll_ok : ∀ (l : List CSVRecord) (m : Pending),
    (∀ p ∈ l, p.transactionId.isSome = true) →
      (insertAll m l).2.1 = l ∧ (insertAll m l).2.2 = false
  | [], _, _ => ⟨rfl, rfl⟩
  | record :: rest, m, h => by
    obtain ⟨id, hid⟩ := Option.isSome_iff_exists.1 (h record List.mem_cons_self)
    obtain ⟨h1, h2⟩ := insertAll_ok rest (m.insert id record)
      fun p hp => h p (List.mem_cons_of_mem _ hp)
    simp only [insertAll, hid, h1, h2, and_self]

/-- Other ids keep their entry. -/
theorem insertAll_other : ∀ (l : List CSVRecord) (m : Pending),
    (∀ q ∈ (insertAll m l).2.1, q.transactionId ≠ some i) → (insertAll m l).1[i]? = m[i]?
  | [], _, _ => rfl
  | record :: rest, m, h => by
    unfold insertAll at h ⊢
    cases hid : record.transactionId with
    | none => rfl
    | some id =>
      simp only [hid] at h ⊢
      rw [insertAll_other rest _ fun q hq => h q (List.mem_cons_of_mem _ hq),
        get_insert, if_neg]
      intro he
      exact h record List.mem_cons_self (he ▸ hid)

/-- An entry is one of the group under its own id, or it was there before. -/
theorem insertAll_mem : ∀ (l : List CSVRecord) (m : Pending),
    (insertAll m l).1[i]? = some p →
      (p ∈ (insertAll m l).2.1 ∧ p.transactionId = some i) ∨ m[i]? = some p
  | [], _, h => Or.inr h
  | record :: rest, m, h => by
    unfold insertAll at h ⊢
    cases hid : record.transactionId with
    | none => simp only [hid] at h; exact Or.inr h
    | some id =>
      simp only [hid] at h ⊢
      rcases insertAll_mem rest _ h with ⟨h1, h2⟩ | h1
      · exact Or.inl ⟨List.mem_cons_of_mem _ h1, h2⟩
      · rw [get_insert] at h1
        split at h1
        · rename_i he
          cases h1
          exact Or.inl ⟨List.mem_cons_self, he ▸ hid⟩
        · exact Or.inr h1

/-- With distinct ids every inserted record is under its id. -/
theorem insertAll_get : ∀ (l : List CSVRecord) (m : Pending),
    (l.map (·.transactionId)).Nodup → p ∈ (insertAll m l).2.1 → p.transactionId = some i →
      (insertAll m l).1[i]? = some p
  | [], _, _, h, _ => by simp [insertAll] at h
  | record :: rest, m, hnd, h, hi => by
    obtain ⟨hno, hnd'⟩ := List.nodup_cons.1 hnd
    unfold insertAll at h ⊢
    cases hid : record.transactionId with
    | none => simp only [hid] at h; simp at h
    | some id =>
      simp only [hid] at h ⊢
      rcases List.mem_cons.1 h with rfl | h
      · rw [hid] at hi
        cases hi
        rw [insertAll_other rest _ ?_, get_insert, if_pos rfl]
        intro q hq hqi
        exact hno (List.mem_map.2 ⟨q, (insertAll_isPrefix rest _).subset hq, hqi.trans hid.symm⟩)
      · exact insertAll_get rest _ hnd' h hi

end Map

end TpuTools.Writer
