import TpuTools.L2Blockhash.BlockhashUpdater
import TpuTools.L4Client.OwnJoin
import TpuTools.L4Client.RunClient

/-!
# `run_client` (`rate-latency-tool/src/run_client.rs`)

All of the tool while it measures: the CSV writer and the subscriber (with an output file only),
the timeout (with a duration only), the blockhash updater, the stats reporter and the scheduler
are tasks of one `JoinSet`, and the last loop of `run_client` joins them in the order they end. A
task that fails or panics cancels the parent token and leaves its error as the result, which a
later failure replaces.

The clock is that of the updater, and the parent token is the `cancelled` of the writer; its child
`cancel_tx_sending` is the `sendCancelled` of the client. A task that `run_client` leaves behind
when `create_leader_updater` fails is aborted, so nothing happens after `returned`. Nothing is
spawned when the identity file cannot be read: that run starts where it ends (`Tool.Started`).

* `tool_move`: the ways each step can go.
-/
namespace TpuTools.Client
open Subscriber Writer

/-- The tasks of the `JoinSet`. -/
inductive TaskName where
  | csvWriter
  | subscriber
  | timeout
  | blockhashUpdater
  | stats
  | scheduler
  deriving DecidableEq, Repr

/-- The errors `run_client` and its tasks can end with, without what they carry.
mirrors rate-latency-tool/src/error.rs:12-46 -/
inductive RateLatencyToolError where
  | connectionTasksSchedulerError
  | blockhashUpdaterError
  | yellowstoneError
  | keypairReadFailure
  | unexpectedError
  | leaderUpdaterError
  deriving DecidableEq, Repr

/-- What `join_next` says of a task. -/
inductive Ending where
  | completed (result : Except RateLatencyToolError Unit)
  | panicked
  deriving DecidableEq

/-- The error a joined task leaves as the result.
mirrors rate-latency-tool/src/run_client.rs:272-286 -/
def Ending.failure : Ending → Option RateLatencyToolError
  | .completed (.ok ()) => none
  | .completed (.error e) => some e
  | .panicked => some .unexpectedError

def succeeded : Ending := .completed (.ok ())

theorem failure_eq_none {e : Ending} : e.failure = none ↔ e = succeeded := by
  constructor
  · intro h
    cases e with
    | completed result =>
      cases result with
      | ok => rfl
      | error => cases h
    | panicked => cases h
  · intro h
    rw [h]
    rfl

/-- How the subscriber ends with its stream. -/
def streamEnding (failed : Bool) : Ending :=
  if failed then .completed (.error .yellowstoneError) else succeeded

inductive MainPhase where
  | fetchingBlockhash
  | creatingLeaderUpdater
  | joining
  | returned (result : Except RateLatencyToolError Unit)
  /-- the first request for a blockhash failed -/
  | panicked
  deriving DecidableEq

def MainPhase.over : MainPhase → Bool
  | .returned _ | .panicked => true
  | _ => false

inductive TimeoutPhase where
  | absent
  | sleeping
  /-- sending was cancelled at this time, updates are still received -/
  | draining (since : Nat)
  /-- sending was cancelled at the first time, everything at the second -/
  | fired (since now : Nat)
  /-- ended by the cancellation -/
  | noticed
  deriving DecidableEq, Repr

/-- How far `run_csv_writer` is with its file. -/
inductive CsvFile where
  | creating
  /-- the header is written, the four tasks run -/
  | created
  /-- an `expect` failed -/
  | failed
  deriving DecidableEq, Repr

inductive SchedulerPhase where
  | notSpawned
  /-- in `setup_endpoint` -/
  | starting
  | running
  | ended (ending : Ending)
  deriving DecidableEq

/-- mirrors rate-latency-tool/src/run_client.rs:51 -/
def YELLOWSTONE_STREAM_SHUTDOWN_DELAY : Nat := 2 * 10 ^ 9

structure ToolParams where
  sdk : Sdk
  payers : List Keypair
  /-- there is a `staked_identity_file` -/
  stakedIdentity : Bool
  computeUnitPrice : Option Nat
  /-- overflow checks are compiled in -/
  checks : Bool
  known : KnownAccounts
  updater : Blockhash.BlockhashUpdaterConfig
  /-- there is an `output_csv_file` -/
  output : Bool
  /-- in nanoseconds -/
  duration : Option Nat

structure Tool where
  main : MainPhase
  client : RunClient
  csvFile : CsvFile
  loop : LoopState
  /-- what each emission task still has to send -/
  tasks : List (List CSVRecord)
  /-- ghost: the messages so far -/
  arrived : List Arrival
  subscriberEnding : Option Ending
  updater : Blockhash.BlockhashUpdater
  timeout : TimeoutPhase
  statsRunning : Bool
  scheduler : SchedulerPhase
  unjoined : List TaskName
  result : Except RateLatencyToolError Unit
  /-- ghost: the joined tasks, in their order -/
  joined : List (TaskName × Ending)
  /-- ghost: the token was cancelled from outside -/
  signalled : Bool

/-- The tasks spawned before the first request.
mirrors rate-latency-tool/src/run_client.rs:86-153 -/
def ToolParams.early (P : ToolParams) : List TaskName :=
  (if P.output then [.csvWriter, .subscriber] else []) ++
    if P.duration.isSome then [.timeout] else []

/-- At the first await.
mirrors rate-latency-tool/src/run_client.rs:76-157 -/
def Tool.init (P : ToolParams) : Tool where
  main := .fetchingBlockhash
  client := .init
  csvFile := .creating
  loop := .init
  tasks := []
  arrived := []
  subscriberEnding := none
  updater := .new Blockhash.defaultHash
  timeout := if P.duration.isSome then .sleeping else .absent
  statsRunning := false
  scheduler := .notSpawned
  unjoined := P.early
  result := .ok ()
  joined := []
  signalled := false

/-- The identity file could not be read: nothing is spawned.
mirrors rate-latency-tool/src/run_client.rs:76-81 -/
def Tool.unidentified (P : ToolParams) : Tool :=
  { Tool.init P with
    main := .returned (.error .keypairReadFailure)
    timeout := .absent
    unjoined := [] }

/-- Where `run_client` first awaits something, or returns. -/
def Tool.Started (P : ToolParams) (s : Tool) : Prop :=
  s = .init P ∨ (P.stakedIdentity = true ∧ s = .unidentified P)

inductive ToolLabel where
  /-- the first answer to `get_latest_blockhash` -/
  | blockhash (answer : Option Hash)
  /-- the result of `create_leader_updater` -/
  | leaderUpdater (ok : Bool)
  /-- the result of `setup_endpoint` -/
  | endpoint (ok : Bool)
  | tick (slot timestamp : Nat) (txStatus : List (TransactionSendStatus × String))
  | schedulerEnds
  /-- `File::create`, and writing the header -/
  | createFile (ok : Bool)
  | writer (l : Writer.Label)
  /-- the loop of the subscriber and the emission tasks -/
  | subscriber (l : PipelineLabel)
  /-- the stream ends; or it, or connecting to it, fails -/
  | subscriberEnds (failed : Bool)
  | subscriberCancelled
  | updater (l : Blockhash.Label)
  | timeoutElapsed
  | delayElapsed
  | timeoutCancelled
  | statsEnds
  /-- the parent token is cancelled by its owner -/
  | signal
  | join (task : TaskName)
  | finish

/-- The writer panics before it has spawned its tasks: the receivers of both channels are gone.
mirrors rate-latency-tool/src/csv_writer.rs:126-137 -/
def uncreated (w : CsvWriter) : CsvWriter :=
  { w with
    block := .panicked
    sweep := .panicked
    track := .panicked
    writer := .failed
    blockChan := []
    trackChan := []
    file := [] }

namespace Tool

/-- The subscriber and the writer. -/
def pipeline (s : Tool) : Pipeline :=
  ⟨s.loop, s.tasks, s.subscriberEnding.isSome, s.client.writer, s.arrived⟩

def withPipeline (s : Tool) (p : Pipeline) : Tool :=
  { s with
    loop := p.loop
    tasks := p.tasks
    arrived := p.arrived
    client := { s.client with writer := p.writer } }

/-- The parent token. -/
def cancelled (s : Tool) : Bool := s.client.writer.cancelled

/-- Cancelling the parent token cancels its child. -/
def cancel (s : Tool) : Tool :=
  { s with client := { s.client with
      sendCancelled := true
      writer := { s.client.writer with cancelled := true } } }

/-- The scheduler task ends and drops what it owns: the sender of the tracker channel and the
receiver of the blockhashes. -/
def schedulerEnded (s : Tool) (ending : Ending) : Tool :=
  { s with
    scheduler := .ended ending
    client := s.client.schedulerDropped
    updater := { s.updater with channel := { s.updater.channel with receivers := false } } }

/-- How a task has ended. -/
def ending (s : Tool) : TaskName → Option Ending
  | .csvWriter =>
    match s.csvFile with
    | .creating => none
    | .created => if s.client.writer.finished then some succeeded else none
    | .failed => some .panicked
  | .subscriber => s.subscriberEnding
  | .timeout =>
    match s.timeout with
    | .fired _ _ | .noticed => some succeeded
    | _ => none
  | .blockhashUpdater =>
    match s.updater.phase with
    | .returned (.ok ()) => some succeeded
    | .returned (.error _) => some (.completed (.error .blockhashUpdaterError))
    | _ => none
  | .stats => if s.statsRunning then none else some succeeded
  | .scheduler =>
    match s.scheduler with
    | .ended e => some e
    | _ => none

/-- One turn of the loop over `join_next`.
mirrors rate-latency-tool/src/run_client.rs:272-286 -/
def joinTask (s : Tool) (task : TaskName) (e : Ending) : Tool :=
  let s : Tool := { s with unjoined := s.unjoined.erase task, joined := s.joined ++ [(task, e)] }
  match e.failure with
  | none => s
  | some error => { s.cancel with result := .error error }

end Tool

/-- The end of the loop and the steps of the writer are labels of their own. -/
def isSubscriberLabel : PipelineLabel → Bool
  | .arrive _ | .emitNext _ | .dropSenders => true
  | .stop | .writer _ => false

variable (P : ToolParams)

/-- `build_tx` has panicked when the client has stopped its scheduler. -/
def Tool.ticked (s : Tool) (client : RunClient) : Tool :=
  if client.schedulerRunning then { s with client := client }
  else ({ s with client := client } : Tool).schedulerEnded .panicked

/-- The steps before `run_client` returns.
mirrors rate-latency-tool/src/run_client.rs:69-288 -/
def stepOpen (s : Tool) : ToolLabel → Option Tool
  | .blockhash answer =>
    match s.main, answer with
    | .fetchingBlockhash, some blockhash =>
      some { s with
        main := .creatingLeaderUpdater
        updater := { Blockhash.BlockhashUpdater.new blockhash with now := s.updater.now }
        unjoined := s.unjoined ++ [.blockhashUpdater] }
    | .fetchingBlockhash, none => some { s with main := .panicked }
    | _, _ => none
  | .leaderUpdater ok =>
    match s.main with
    | .creatingLeaderUpdater =>
      if ok then
        some { s with
          main := .joining
          statsRunning := true
          scheduler := .starting
          unjoined := s.unjoined ++ [.stats, .scheduler] }
      else some { s with main := .returned (.error .leaderUpdaterError) }
    | _ => none
  | .endpoint ok =>
    match s.scheduler with
    | .starting =>
      if ok then some { s with scheduler := .running }
      else some (s.schedulerEnded (.completed (.error .connectionTasksSchedulerError)))
    | _ => none
  | .tick slot timestamp txStatus =>
    match s.scheduler with
    | .running => (clientStep P.sdk P.payers P.computeUnitPrice s.client
        (.tick slot timestamp s.updater.channel.value txStatus)).map s.ticked
    | _ => none
  | .schedulerEnds =>
    if s.scheduler = .running ∧ s.client.sendCancelled then some (s.schedulerEnded succeeded)
    else none
  | .createFile ok =>
    if P.output ∧ s.csvFile = .creating then
      if ok then some { s with csvFile := .created }
      else some { s with
        csvFile := .failed
        client := { s.client with writer := uncreated s.client.writer } }
    else none
  | .writer wl =>
    if P.output ∧ s.csvFile = .created ∧ isOwnLabel wl ∧ isWriterLabel wl then
      (step s.client.writer wl).map fun w => { s with client := { s.client with writer := w } }
    else none
  | .subscriber pl =>
    if P.output ∧ isSubscriberLabel pl then
      (pipelineStep P.checks P.known s.pipeline pl).map s.withPipeline
    else none
  | .subscriberEnds failed =>
    if P.output ∧ s.subscriberEnding = none then
      some { s with subscriberEnding := some (streamEnding failed) }
    else none
  | .subscriberCancelled =>
    if P.output ∧ s.subscriberEnding = none ∧ s.cancelled then
      some { s with subscriberEnding := some succeeded }
    else none
  | .updater .dropReceivers => none
  | .updater (.advance elapsed) =>
    some { s with updater := { s.updater with now := s.updater.now + elapsed } }
  | .updater l =>
    if s.main = .fetchingBlockhash then none
    else (Blockhash.step P.updater s.updater l).map fun u => { s with updater := u }
  | .timeoutElapsed =>
    match s.timeout, P.duration with
    | .sleeping, some duration =>
      if s.updater.now < duration then none
      else if P.output then
        some { s with
          timeout := .draining s.updater.now
          client := { s.client with sendCancelled := true } }
      else some { s.cancel with timeout := .fired s.updater.now s.updater.now }
    | _, _ => none
  | .delayElapsed =>
    match s.timeout with
    | .draining since =>
      if s.updater.now < since + YELLOWSTONE_STREAM_SHUTDOWN_DELAY then none
      else some { s.cancel with timeout := .fired since s.updater.now }
    | _ => none
  | .timeoutCancelled =>
    if s.timeout = .sleeping ∧ s.cancelled then some { s with timeout := .noticed } else none
  | .statsEnds =>
    if s.statsRunning ∧ s.client.sendCancelled then some { s with statsRunning := false } else none
  | .signal => some { s.cancel with signalled := true }
  | .join task =>
    if s.main = .joining ∧ task ∈ s.unjoined then (s.ending task).map (s.joinTask task) else none
  | .finish =>
    if s.main = .joining ∧ s.unjoined = [] then some { s with main := .returned s.result }
    else none

def toolStep (s : Tool) (l : ToolLabel) : Option Tool :=
  if s.main.over then none else stepOpen P s l

def tool : LTS Tool ToolLabel := .ofFn (Tool.Started P) (toolStep P)

/-! ## Steps -/

variable {P} {s s' : Tool} {l : ToolLabel}

/-- The ways each step can go, with what held before it. -/
inductive ToolMove (P : ToolParams) (s : Tool) : ToolLabel → Tool → Prop where
  | fetched {blockhash : Hash} (hm : s.main = .fetchingBlockhash) :
      ToolMove P s (.blockhash (some blockhash)) { s with
        main := .creatingLeaderUpdater
        updater := { Blockhash.BlockhashUpdater.new blockhash with now := s.updater.now }
        unjoined := s.unjoined ++ [.blockhashUpdater] }
  | notFetched (hm : s.main = .fetchingBlockhash) :
      ToolMove P s (.blockhash none) { s with main := .panicked }
  | spawned (hm : s.main = .creatingLeaderUpdater) : ToolMove P s (.leaderUpdater true) { s with
      main := .joining
      statsRunning := true
      scheduler := .starting
      unjoined := s.unjoined ++ [.stats, .scheduler] }
  | noLeaderUpdater (hm : s.main = .creatingLeaderUpdater) :
      ToolMove P s (.leaderUpdater false) { s with main := .returned (.error .leaderUpdaterError) }
  | endpoint (hs : s.scheduler = .starting) :
      ToolMove P s (.endpoint true) { s with scheduler := .running }
  | noEndpoint (hs : s.scheduler = .starting) : ToolMove P s (.endpoint false)
      (s.schedulerEnded (.completed (.error .connectionTasksSchedulerError)))
  /-- `build_tx` panics. -/
  | tickEnds {slot timestamp : Nat} {txStatus : List (TransactionSendStatus × String)}
      (hs : s.scheduler = .running) :
      ToolMove P s (.tick slot timestamp txStatus) (s.schedulerEnded .panicked)
  | tick {slot timestamp : Nat} {txStatus : List (TransactionSendStatus × String)}
      {signature : Signature} (hs : s.scheduler = .running) :
      ToolMove P s (.tick slot timestamp txStatus) { s with
        client := s.client.built.sendRecord
          (tickRecord s.client signature.toText slot timestamp txStatus) }
  | schedulerEnds (hs : s.scheduler = .running) (hc : s.client.sendCancelled = true) :
      ToolMove P s .schedulerEnds (s.schedulerEnded succeeded)
  | fileCreated (hf : s.csvFile = .creating) :
      ToolMove P s (.createFile true) { s with csvFile := .created }
  | fileFailed (hf : s.csvFile = .creating) : ToolMove P s (.createFile false) { s with
      csvFile := .failed
      client := { s.client with writer := uncreated s.client.writer } }
  | writer {wl : Writer.Label} {w : CsvWriter} (hf : s.csvFile = .created)
      (hown : isOwnLabel wl = true)
      (hwl : isWriterLabel wl = true) (hw : step s.client.writer wl = some w) :
      ToolMove P s (.writer wl) { s with client := { s.client with writer := w } }
  | subscriber {pl : PipelineLabel} {p : Pipeline} (hpl : isSubscriberLabel pl = true)
      (hp : pipelineStep P.checks P.known s.pipeline pl = some p) :
      ToolMove P s (.subscriber pl) (s.withPipeline p)
  | subscriberEnds {failed : Bool} (hs : s.subscriberEnding = none) :
      ToolMove P s (.subscriberEnds failed)
        { s with subscriberEnding := some (streamEnding failed) }
  | subscriberCancelled (hs : s.subscriberEnding = none) :
      ToolMove P s .subscriberCancelled { s with subscriberEnding := some succeeded }
  | advance {elapsed : Nat} : ToolMove P s (.updater (.advance elapsed))
      { s with updater := { s.updater with now := s.updater.now + elapsed } }
  | updater {bl : Blockhash.Label} {u : Blockhash.BlockhashUpdater}
      (hm : s.main ≠ .fetchingBlockhash) (hd : bl ≠ .dropReceivers)
      (hu : Blockhash.step P.updater s.updater bl = some u) (hnow : u.now = s.updater.now) :
      ToolMove P s (.updater bl) { s with updater := u }
  | stopSending {duration : Nat} (ht : s.timeout = .sleeping) (hd : P.duration = some duration)
      (hnow : duration ≤ s.updater.now) (ho : P.output = true) :
      ToolMove P s .timeoutElapsed { s with
        timeout := .draining s.updater.now
        client := { s.client with sendCancelled := true } }
  | stopAll {duration : Nat} (ht : s.timeout = .sleeping) (hd : P.duration = some duration)
      (hnow : duration ≤ s.updater.now) (ho : P.output = false) :
      ToolMove P s .timeoutElapsed
        { s.cancel with timeout := .fired s.updater.now s.updater.now }
  | delayElapsed {since : Nat} (ht : s.timeout = .draining since)
      (hnow : since + YELLOWSTONE_STREAM_SHUTDOWN_DELAY ≤ s.updater.now) :
      ToolMove P s .delayElapsed { s.cancel with timeout := .fired since s.updater.now }
  | timeoutCancelled (ht : s.timeout = .sleeping) (hc : s.cancelled = true) :
      ToolMove P s .timeoutCancelled { s with timeout := .noticed }
  | statsEnds : ToolMove P s .statsEnds { s with statsRunning := false }
  | signal : ToolMove P s .signal { s.cancel with signalled := true }
  | join {task : TaskName} (hm : s.main = .joining) (ht : task ∈ s.unjoined)
      (he : s.ending task = some succeeded) : ToolMove P s (.join task) { s with
        unjoined := s.unjoined.erase task
        joined := s.joined ++ [(task, succeeded)] }
  | joinFailed {task : TaskName} {e : Ending} {error : RateLatencyToolError}
      (hm : s.main = .joining) (ht : task ∈ s.unjoined) (he : s.ending task = some e)
      (hf : e.failure = some error) : ToolMove P s (.join task) { s.cancel with
        unjoined := s.unjoined.erase task
        joined := s.joined ++ [(task, e)]
        result := .error error }
  | finish (hm : s.main = .joining) (hu : s.unjoined = []) :
      ToolMove P s .finish { s with main := .returned s.result }

theorem sendRecord_schedulerRunning (c : RunClient) (record : CSVRecord) :
    (c.sendRecord record).schedulerRunning = c.schedulerRunning := by
  unfold RunClient.sendRecord
  split <;> rfl

theorem sendRecord_cancelled (c : RunClient) (record : CSVRecord) :
    (c.sendRecord record).writer.cancelled = c.writer.cancelled := by
  unfold RunClient.sendRecord
  split
  · rename_i w hw
    obtain ⟨-, rfl⟩ := of_guard hw
    rfl
  · rfl

theorem stepOpen_tick {slot timestamp : Nat} {txStatus : List (TransactionSendStatus × String)}
    (h : stepOpen P s (.tick slot timestamp txStatus) = some s') :
    ToolMove P s (.tick slot timestamp txStatus) s' := by
  simp only [stepOpen] at h
  split at h
  · rename_i hs
    obtain ⟨c, hc, rfl⟩ := Option.map_eq_some_iff.1 h
    unfold Tool.ticked
    cases client_move hc with
    | tickEnds hrun =>
      rw [if_neg (by simp [RunClient.schedulerDropped])]
      exact .tickEnds hs
    | tick hrun =>
      rw [if_pos (by rw [sendRecord_schedulerRunning]; exact hrun)]
      exact .tick hs
  · cases h

theorem stepOpen_updater {bl : Blockhash.Label} (h : stepOpen P s (.updater bl) = some s') :
    ToolMove P s (.updater bl) s' := by
  have other (hd : bl ≠ .dropReceivers) (ha : ∀ elapsed, bl ≠ .advance elapsed)
      (h : (if s.main = .fetchingBlockhash then none
        else (Blockhash.step P.updater s.updater bl).map fun u => { s with updater := u }) =
          some s') : ToolMove P s (.updater bl) s' := by
    split at h
    · cases h
    · rename_i hm
      obtain ⟨u, hu, rfl⟩ := Option.map_eq_some_iff.1 h
      refine .updater hm hd hu ?_
      cases Blockhash.step_move hu with
      | advance => exact absurd rfl (ha _)
      | _ => rfl
  cases bl with
  | dropReceivers => cases h
  | advance elapsed =>
    cases h
    exact .advance
  | _ => exact other (by simp) (by simp) h

theorem stepOpen_timeout (h : stepOpen P s .timeoutElapsed = some s') :
    ToolMove P s .timeoutElapsed s' := by
  simp only [stepOpen] at h
  split at h
  · rename_i duration ht hd
    split at h
    · cases h
    · rename_i hnow
      split at h
      · rename_i ho
        cases h
        exact .stopSending ht hd (Nat.le_of_not_lt hnow) ho
      · rename_i ho
        cases h
        exact .stopAll ht hd (Nat.le_of_not_lt hnow) (Bool.eq_false_iff.2 ho)
  · cases h

/-- Every step goes one of these ways, before `run_client` returns. -/
theorem tool_move (h : toolStep P s l = some s') : s.main.over = false ∧ ToolMove P s l s' := by
  unfold toolStep at h
  split at h
  · cases h
  · rename_i hopen
    refine ⟨Bool.eq_false_iff.2 hopen, ?_⟩
    cases l with
    | blockhash answer =>
      simp only [stepOpen] at h
      split at h
      · cases h
        exact .fetched ‹_›
      · cases h
        exact .notFetched ‹_›
      · cases h
    | leaderUpdater ok =>
      simp only [stepOpen] at h
      split at h
      · cases ok with
        | true =>
          cases h
          exact .spawned ‹_›
        | false =>
          cases h
          exact .noLeaderUpdater ‹_›
      · cases h
    | endpoint ok =>
      simp only [stepOpen] at h
      split at h
      · cases ok with
        | true =>
          cases h
          exact .endpoint ‹_›
        | false =>
          cases h
          exact .noEndpoint ‹_›
      · cases h
    | tick slot timestamp txStatus => exact stepOpen_tick h
    | schedulerEnds =>
      obtain ⟨⟨hs, hc⟩, he⟩ := Option.ite_none_right_eq_some.1 h
      cases he
      exact .schedulerEnds hs hc
    | createFile ok =>
      obtain ⟨⟨-, hf⟩, he⟩ := Option.ite_none_right_eq_some.1 h
      cases ok with
      | true =>
        cases he
        exact .fileCreated hf
      | false =>
        cases he
        exact .fileFailed hf
    | writer wl =>
      obtain ⟨⟨-, hf, hown, hwl⟩, he⟩ := Option.ite_none_right_eq_some.1 h
      obtain ⟨w, hw, rfl⟩ := Option.map_eq_some_iff.1 he
      exact .writer hf hown hwl hw
    | subscriber pl =>
      obtain ⟨⟨-, hpl⟩, he⟩ := Option.ite_none_right_eq_some.1 h
      obtain ⟨p, hp, rfl⟩ := Option.map_eq_some_iff.1 he
      exact .subscriber hpl hp
    | subscriberEnds failed =>
      obtain ⟨⟨-, hs⟩, he⟩ := Option.ite_none_right_eq_some.1 h
      cases he
      exact .subscriberEnds hs
    | subscriberCancelled =>
      obtain ⟨⟨-, hs, -⟩, he⟩ := Option.ite_none_right_eq_some.1 h
      cases he
      exact .subscriberCancelled hs
    | updater bl => exact stepOpen_updater h
    | timeoutElapsed => exact stepOpen_timeout h
    | delayElapsed =>
      simp only [stepOpen] at h
      split at h
      · rename_i since ht
        split at h
        · cases h
        · rename_i hnow
          cases h
          exact .delayElapsed ht (Nat.le_of_not_lt hnow)
      · cases h
    | timeoutCancelled =>
      obtain ⟨⟨ht, hc⟩, he⟩ := Option.ite_none_right_eq_some.1 h
      cases he
      exact .timeoutCancelled ht hc
    | statsEnds =>
      obtain ⟨-, he⟩ := Option.ite_none_right_eq_some.1 h
      cases he
      exact .statsEnds
    | signal =>
      cases h
      exact .signal
    | join task =>
      obtain ⟨⟨hm, ht⟩, hmap⟩ := Option.ite_none_right_eq_some.1 h
      obtain ⟨e, he, rfl⟩ := Option.map_eq_some_iff.1 hmap
      unfold Tool.joinTask
      cases hf : e.failure with
      | none =>
        cases failure_eq_none.1 hf
        exact .join hm ht he
      | some error => exact .joinFailed hm ht he hf
    | finish =>
      obtain ⟨⟨hm, hu⟩, he⟩ := Option.ite_none_right_eq_some.1 h
      cases he
      exact .finish hm hu

end TpuTools.Client
