import TpuTools.L2Sender.BuildTx
import TpuTools.L3Writer.Shutdown

/-!
# `run_client` and the CSV writer at shutdown

The scheduler builds a transaction in every tick and hands its record to `send_record`, which
sends it to the tracker channel. The timeout cancels sending first and the parent token two
seconds later; an error or a signal cancels the parent token at once. The scheduler awaits
only its ticker, so it sees the cancellation between ticks, and it drops the sender when it
ends.

* `client`: scheduler, cancellation and the writer of `L3Writer`.
* `no_record_lost`: in careful runs every record handed to `send_record` is in the file when
  `run_csv_writer` returns.
* `records_lost`: both ways to shut down can lose one.
-/
namespace TpuTools.Client
open Sender Writer Ints

structure RunClient where
  build : BuildState
  schedulerRunning : Bool
  /-- the child token `cancel_tx_sending`; the parent token is the writer's `cancelled` -/
  sendCancelled : Bool
  writer : CsvWriter
  /-- ghost: the records passed to `send_record` -/
  handed : List CSVRecord

def RunClient.init : RunClient := ⟨.init, true, false, .init, []⟩

inductive ClientLabel where
  /-- one tick; `txStatus` is what the loop over the leaders pushed -/
  | tick (slot timestamp : Nat) (blockhash : Hash)
      (txStatus : List (TransactionSendStatus × String))
  /-- the timeout -/
  | cancelSending
  /-- the parent token, and with it its child -/
  | cancel
  | schedulerEnds
  | writer (l : Writer.Label)

/-- What happens inside `run_csv_writer`, and the block channel. -/
def isOwnLabel : Writer.Label → Bool
  | .sendTracked _ | .dropTracker | .cancel => false
  | _ => true

/-- The scheduler task ends and drops `tx_tracker_sender`. -/
def RunClient.schedulerDropped (s : RunClient) : RunClient :=
  { s with schedulerRunning := false, writer := { s.writer with trackOpen := false } }

/-- The closure over `tx_tracker_sender`; when the receiver is gone it cancels sending.
mirrors rate-latency-tool/src/run_client.rs:255-262 -/
def RunClient.sendRecord (s : RunClient) (record : CSVRecord) : RunClient :=
  match s.writer.sendTracked record with
  | some writer => { s with writer := writer, handed := s.handed ++ [record] }
  | none => { s with sendCancelled := true, handed := s.handed ++ [record] }

variable (sdk : Sdk) (payers : List Keypair) (computeUnitPrice : Option Nat)

/-- mirrors rate-latency-tool/src/run_client.rs:132-153, 197-269 and
rate-latency-tool/src/run_rate_latency_tool_scheduler.rs:49-156 -/
def clientStep (s : RunClient) : ClientLabel → Option RunClient
  | .tick slot timestamp blockhash txStatus =>
    if s.schedulerRunning then
      match buildTx sdk payers computeUnitPrice s.build slot timestamp blockhash with
      | none => some s.schedulerDropped
      | some (build, _, _, record) =>
        some (({ s with build := build } : RunClient).sendRecord { record with txStatus := txStatus })
    else none
  | .cancelSending => some { s with sendCancelled := true }
  | .cancel =>
    some { s with sendCancelled := true, writer := { s.writer with cancelled := true } }
  | .schedulerEnds =>
    if s.schedulerRunning ∧ s.sendCancelled then some s.schedulerDropped else none
  | .writer l => if isOwnLabel l then (step s.writer l).map ({ s with writer := · }) else none

def client : LTS RunClient ClientLabel :=
  LTS.ofFn (· = .init) (clientStep sdk payers computeUnitPrice)

/-- A tick comes while the tracker task runs, and fewer than `2 ^ 64` came before; the writer
takes careful steps. -/
def CarefulClient (s : RunClient) : ClientLabel → Prop
  | .tick _ _ _ _ => s.writer.track = .running ∧ s.handed.length < 2 ^ 64
  | .writer l => Careful s.writer l
  | _ => True

instance (s : RunClient) : (l : ClientLabel) → Decidable (CarefulClient s l)
  | .tick _ _ _ _ =>
    inferInstanceAs (Decidable (s.writer.track = .running ∧ s.handed.length < 2 ^ 64))
  | .writer l => inferInstanceAs (Decidable (Careful s.writer l))
  | .cancelSending | .cancel | .schedulerEnds => .isTrue trivial

variable {sdk payers computeUnitPrice} {s s' : RunClient} {l : ClientLabel}

/-- The scheduler numbers its records `0, 1, 2, ...`, and the tracker channel takes them all. -/
structure Numbered (s : RunClient) : Prop where
  handed : s.writer.sent = s.handed
  ids : s.handed.map (·.transactionId) = (List.range s.handed.length).map some
  stamped : ∀ p ∈ s.handed, p.sentTimestamp.isSome = true
  next : s.build.txId = s.handed.length % 2 ^ 64
  trackOpen : s.schedulerRunning = true → s.writer.trackOpen = true

theorem Numbered.trackerStream (hN : Numbered s) : TrackerStream s.writer.sent := by
  rw [hN.handed]
  refine ⟨fun p hp => ⟨?_, hN.stamped p hp⟩, ?_⟩
  · have hid : p.transactionId ∈ s.handed.map (·.transactionId) := List.mem_map_of_mem hp
    rw [hN.ids] at hid
    obtain ⟨i, -, hi⟩ := List.mem_map.1 hid
    rw [← hi]
    rfl
  · rw [hN.ids]
    exact List.nodup_range.map (Option.some_injective _)

/-- Only its own label closes the tracker channel. -/
theorem step_trackOpen {s s' : CsvWriter} {l : Writer.Label} (hl : l ≠ .dropTracker)
    (h : step s l = some s') : s'.trackOpen = s.trackOpen := by
  cases step_move h with
  | dropTracker => exact absurd rfl hl
  | _ => rfl

/-- The record of a tick. -/
def tickRecord (s : RunClient) (signature : String) (slot timestamp : Nat)
    (txStatus : List (TransactionSendStatus × String)) : CSVRecord :=
  { sentRecord signature s.build.txId slot timestamp with txStatus := txStatus }

/-- `build_tx` has taken a payer and an id. -/
def RunClient.built (s : RunClient) : RunClient :=
  { s with build := ⟨s.build.payersTaken + 1, wrappingAdd s.build.txId 1⟩ }

/-- The ways each step can go. -/
inductive ClientMove (s : RunClient) : ClientLabel → RunClient → Prop where
  /-- `build_tx` fails. -/
  | tickEnds {slot timestamp : Nat} {blockhash : Hash}
      {txStatus : List (TransactionSendStatus × String)} (hrun : s.schedulerRunning = true) :
      ClientMove s (.tick slot timestamp blockhash txStatus) s.schedulerDropped
  | tick {slot timestamp : Nat} {blockhash : Hash}
      {txStatus : List (TransactionSendStatus × String)} {signature : Signature}
      (hrun : s.schedulerRunning = true) :
      ClientMove s (.tick slot timestamp blockhash txStatus)
        (s.built.sendRecord (tickRecord s signature.toText slot timestamp txStatus))
  | cancelSending : ClientMove s .cancelSending { s with sendCancelled := true }
  | cancel : ClientMove s .cancel
      { s with sendCancelled := true, writer := { s.writer with cancelled := true } }
  | schedulerEnds : ClientMove s .schedulerEnds s.schedulerDropped
  | writer {wl : Writer.Label} {w : CsvWriter} (hown : isOwnLabel wl = true)
      (hw : step s.writer wl = some w) : ClientMove s (.writer wl) { s with writer := w }

theorem client_move (h : clientStep sdk payers computeUnitPrice s l = some s') :
    ClientMove s l s' := by
  cases l with
  | tick slot timestamp blockhash txStatus =>
    simp only [clientStep] at h
    split at h
    · rename_i hrun
      split at h
      · cases h
        exact .tickEnds hrun
      · rename_i build id wire record hb
        obtain ⟨payer, signature, -, -, -, rfl, rfl⟩ := buildTx_spec hb
        cases h
        exact .tick hrun
    · cases h
  | cancelSending =>
    cases h
    exact .cancelSending
  | cancel =>
    cases h
    exact .cancel
  | schedulerEnds =>
    simp only [clientStep] at h
    split at h
    · cases h
      exact .schedulerEnds
    · cases h
  | writer wl =>
    simp only [clientStep] at h
    split at h
    · rename_i hown
      obtain ⟨w, hw, rfl⟩ := Option.map_eq_some_iff.1 h
      exact .writer hown hw
    · cases h

/-- Inside `run_csv_writer` nothing is sent to the tracker channel. -/
theorem own_sent {w : CsvWriter} {wl : Writer.Label} (hown : isOwnLabel wl = true)
    (hw : step s.writer wl = some w) : w.sent = s.writer.sent := by
  rw [(step_channels hw).1]
  cases wl <;> simp [isOwnLabel, Label.sends] at hown ⊢

/-- A record handed over reaches the tracker channel, or its receiver is gone. -/
theorem sendRecord_cases (s : RunClient) (record : CSVRecord) :
    (∃ w, step s.writer (.sendTracked record) = some w ∧
      s.sendRecord record = { s with writer := w, handed := s.handed ++ [record] }) ∨
    s.sendRecord record = { s with sendCancelled := true, handed := s.handed ++ [record] } := by
  unfold RunClient.sendRecord
  split
  · rename_i w hw
    exact Or.inl ⟨w, hw, rfl⟩
  · exact Or.inr rfl

/-- While its receiver is there it reaches the channel. -/
theorem sendRecord_taken (record : CSVRecord) (hopen : s.writer.trackOpen = true)
    (hrun : s.writer.track = .running) :
    ∃ w, step s.writer (.sendTracked record) = some w ∧
      s.sendRecord record = { s with writer := w, handed := s.handed ++ [record] } := by
  have hsend : s.writer.sendTracked record = some { s.writer with
      trackChan := s.writer.trackChan ++ [record]
      sent := s.writer.sent ++ [record] } := by
    simp [CsvWriter.sendTracked, hopen, hrun]
  refine ⟨_, hsend, ?_⟩
  simp only [RunClient.sendRecord, hsend]

theorem numbered_tick {signature : String} {slot timestamp : Nat}
    {txStatus : List (TransactionSendStatus × String)} (hrun : s.schedulerRunning = true)
    (htrack : s.writer.track = .running) (hfew : s.handed.length < 2 ^ 64) (hN : Numbered s) :
    Numbered (s.built.sendRecord (tickRecord s signature slot timestamp txStatus)) := by
  obtain ⟨w, hw, heq⟩ := sendRecord_taken (s := s.built)
    (tickRecord s signature slot timestamp txStatus) (hN.trackOpen hrun) htrack
  have hid : s.build.txId = s.handed.length := by
    rw [hN.next, Nat.mod_eq_of_lt hfew]
  rw [heq]
  cases step_move hw
  refine ⟨?_, ?_, ?_, ?_, hN.trackOpen⟩
  · show s.writer.sent ++ _ = s.handed ++ _
    rw [hN.handed]
  · simp only [RunClient.built, List.map_append, hN.ids, List.length_append,
      List.length_singleton, List.range_succ, List.map_cons, List.map_nil, tickRecord, sentRecord,
      hid]
  · intro p hp
    rcases List.mem_append.1 hp with hp | hp
    · exact hN.stamped p hp
    · rw [List.mem_singleton.1 hp]
      rfl
  · simp only [RunClient.built, wrappingAdd, hid, List.length_append, List.length_singleton]

theorem numbered_step (h : clientStep sdk payers computeUnitPrice s l = some s')
    (hc : CarefulClient s l) (hN : Numbered s) : Numbered s' := by
  cases client_move h with
  | tick hrun => exact numbered_tick hrun hc.1 hc.2 hN
  | cancelSending | cancel => exact ⟨hN.handed, hN.ids, hN.stamped, hN.next, hN.trackOpen⟩
  | tickEnds | schedulerEnds =>
    exact ⟨hN.handed, hN.ids, hN.stamped, hN.next, by simp [RunClient.schedulerDropped]⟩
  | @writer wl w hown hw =>
    have hopen : w.trackOpen = s.writer.trackOpen := by
      apply step_trackOpen _ hw
      intro hl
      subst hl
      cases hown
    refine ⟨?_, hN.ids, hN.stamped, hN.next, ?_⟩
    · rw [own_sent hown hw, hN.handed]
    · rw [hopen]
      exact hN.trackOpen

/-- A step is at most one step of the writer, and a careful one of a careful one. -/
theorem client_writer (h : clientStep sdk payers computeUnitPrice s l = some s') :
    s'.writer = s.writer ∨ ∃ wl, step s.writer wl = some s'.writer ∧
      (CarefulClient s l → Careful s.writer wl) := by
  cases client_move h with
  | tickEnds | schedulerEnds => exact Or.inr ⟨.dropTracker, rfl, fun _ => trivial⟩
  | @tick slot timestamp _ txStatus signature =>
    rcases sendRecord_cases s.built (tickRecord s signature.toText slot timestamp txStatus) with
      ⟨w, hw, heq⟩ | heq
    · rw [heq]
      exact Or.inr ⟨.sendTracked _, hw, fun _ => trivial⟩
    · rw [heq]
      exact Or.inl rfl
  | cancelSending => exact Or.inl rfl
  | cancel => exact Or.inr ⟨.cancel, rfl, fun _ => trivial⟩
  | @writer wl w hown hw => exact Or.inr ⟨wl, hw, fun hc => hc⟩

/-- The writer of a reachable client is reachable by itself. -/
theorem writer_projection :
    LTS.Projection (client sdk payers computeUnitPrice) Writer.lts (·.writer) where
  init s hs := by
    rw [show s = .init from hs]
    rfl
  step s l s' hs := by
    rcases client_writer hs with hw | ⟨wl, hw, -⟩
    · rw [hw]
      exact ⟨[], .nil _⟩
    · exact ⟨[wl], .single hw⟩

theorem careful_reachable
    (h : ((client sdk payers computeUnitPrice).guard CarefulClient).Reachable s) :
    Numbered s ∧ (Writer.lts.guard Careful).Reachable s.writer := by
  refine LTS.Inductive.reachable
    (P := fun s => Numbered s ∧ (Writer.lts.guard Careful).Reachable s.writer) ⟨?_, ?_⟩ s h
  · intro s hs
    rw [show s = .init from hs]
    exact ⟨⟨rfl, rfl, by simp [RunClient.init], rfl, fun _ => rfl⟩, .init rfl⟩
  · rintro s l s' ⟨hN, hr⟩ ⟨hc, hs⟩
    refine ⟨numbered_step hs hc hN, ?_⟩
    rcases client_writer hs with hw | ⟨wl, hw, hcw⟩
    · rw [hw]
      exact hr
    · exact hr.step ⟨hcw hc, hw⟩

/-- **No record lost.** In every run of careful steps, whichever way it shuts down: when
`run_csv_writer` returns, each record handed to `send_record` has a row with its signature
and its transaction id in the file. -/
theorem no_record_lost
    (h : ((client sdk payers computeUnitPrice).guard CarefulClient).Reachable s)
    (hf : s.writer.finished = true) {p : CSVRecord} (hp : p ∈ s.handed) :
    ∃ row ∈ s.writer.file, row[0]? = some p.signature ∧
      row[1]? = some (CSVRecord.numField p.transactionId) := by
  obtain ⟨hN, hr⟩ := careful_reachable h
  exact all_written hr hN.trackerStream hf (hN.handed ▸ hp)

/-! ## Shutdowns -/

def plainTick : ClientLabel := .tick 20 300 plainHash [(.sent, "leader")]

/-- The timeout; the tracker task is still in its loop when the parent token is cancelled. -/
def dumpedRun : List ClientLabel :=
  [plainTick, .writer .trackInsert, .cancelSending, .cancel, .schedulerEnds,
    .writer .trackCancelled, .writer .blockCancelled, .writer .sweepCancelled,
    .writer .writerTake, .writer (.writeRow true), .writer (.flush true), .writer .writerClosed]

/-- The timeout; the tracker task sees the closed channel and ends before the parent token is
cancelled, which only ends the two tasks that could have written the map. -/
def closedRun : List ClientLabel :=
  [plainTick, .writer .trackInsert, .cancelSending, .schedulerEnds, .writer .trackClosed, .cancel,
    .writer .blockCancelled, .writer .sweepCancelled, .writer .writerClosed]

/-- The parent token is cancelled while the record is queued. -/
def queuedRun : List ClientLabel :=
  [plainTick, .cancel, .schedulerEnds, .writer .trackCancelled, .writer .blockCancelled,
    .writer .sweepCancelled, .writer .writerClosed]

theorem dumpedRun_written : ∃ s,
    ((client plainSdk [plainPayer] none).guard CarefulClient).Reachable s ∧
    s.writer.finished = true ∧ s.handed ≠ [] ∧
    ∀ p ∈ s.handed, ∃ row ∈ s.writer.file, row[0]? = some p.signature ∧
      row[1]? = some (CSVRecord.numField p.transactionId) := by
  obtain ⟨s, hr, hs⟩ := @LTS.guard_reachable_of_view _ _ _ (· = RunClient.init)
    (clientStep plainSdk [plainPayer] none) CarefulClient _ _ rfl dumpedRun
    (fun s => (s.writer.finished, s.handed.length)) (true, 1) rfl
  simp only [Prod.mk.injEq] at hs
  refine ⟨s, hr, hs.1, ?_, fun p hp => no_record_lost hr hs.1 hp⟩
  intro he
  simp [he] at hs

/-- In the run of these labels all tasks end, and a record handed over has no row. -/
def LosesRecord (ls : List ClientLabel) : Prop := ∃ s,
  (client plainSdk [plainPayer] none).Run .init ls s ∧ s.writer.finished = true ∧
    ∃ p ∈ s.handed, ¬ ∃ row ∈ s.writer.file, row[0]? = some p.signature ∧
      row[1]? = some (CSVRecord.numField p.transactionId)

/-- The only record handed over has id 0, and the file only its header. -/
theorem losesRecord_of_empty {ls : List ClientLabel} {s : RunClient}
    (hr : (client plainSdk [plainPayer] none).Run .init ls s) (hf : s.writer.finished = true)
    (hids : s.handed.map (·.transactionId) = [some 0])
    (hfile : s.writer.file = [CSVRecord.fieldNames]) : LosesRecord ls := by
  obtain ⟨p, hp, hid⟩ := List.mem_map.1 (hids ▸ List.mem_singleton.2 rfl :
    some 0 ∈ s.handed.map (·.transactionId))
  refine ⟨s, hr, hf, p, hp, ?_⟩
  rintro ⟨row, hrow, -, hrow1⟩
  rw [hfile] at hrow
  rw [List.mem_singleton.1 hrow, hid] at hrow1
  revert hrow1
  decide

/-- Both shutdowns lose the record, without a failing write. -/
theorem records_lost : LosesRecord closedRun ∧ LosesRecord queuedRun := by
  constructor
  · exact losesRecord_of_empty (LTS.run_of_exec (· = RunClient.init) _ closedRun _ _ rfl)
      rfl rfl rfl
  · exact losesRecord_of_empty (LTS.run_of_exec (· = RunClient.init) _ queuedRun _ _ rfl)
      rfl rfl rfl

end TpuTools.Client
