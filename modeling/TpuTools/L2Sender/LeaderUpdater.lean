import TpuTools.L2Sender.Preconnect

/-!
# Leader updaters (`tools-common/src/leader_updater.rs`)

`create_leader_updater` starts what `--leader-tracker` asks for: a pinned address, the
`LeaderTpuService`, or one of the three node address services. What a service knows changes by
itself; a `View` is what it answers at one time. Its start can fail.

* `nextLeaders_prefix`: the send leaders are a prefix of the connect leaders, if more lookahead
  only adds leaders.
* **`pinned_records`**: to a pinned address every transaction is offered exactly once, and the
  records say slot 0.
-/
namespace TpuTools.Sender
open Ints

/-- mirrors tools-common/src/cli.rs:13-38 -/
inductive LeaderTracker where
  | pinnedLeaderTracker (address : SocketAddr)
  | legacyLeaderTracker
  | wsLeaderTracker
  | yellowstoneLeaderTracker (url : String) (token : Option String)
  | customLeaderTracker (bindAddress : SocketAddr)
  deriving DecidableEq

/-- Without what they carry.
mirrors tools-common/src/leader_updater.rs:51-63 -/
inductive LeaderUpdaterError where
  | websocketNodeAddressServiceError
  | nodeAddressServiceError
  | customGeyserNodeAddressServiceError
  | legacyLeaderUpdaterInitializationFailed
  deriving DecidableEq, Repr

/-- What a service answers at some time. -/
structure View where
  /-- the leaders of so many slots (`LeaderTpuService`) -/
  leaderTpuSockets : Nat → List SocketAddr
  /-- so many leaders (the node address services) -/
  nextLeaders : Nat → List SocketAddr
  currentSlot : Nat
  deriving Inhabited

/-- `dyn LeaderUpdaterWithSlot` -/
inductive LeaderUpdater where
  | pinnedLeaderUpdater (address : List SocketAddr)
  | leaderUpdaterService
  | nodeAddressService
  deriving DecidableEq

/-- mirrors tools-common/src/leader_updater.rs:65-118 -/
def createLeaderUpdater (starts : Bool) : LeaderTracker → Except LeaderUpdaterError LeaderUpdater
  | .pinnedLeaderTracker address => .ok (.pinnedLeaderUpdater [address])
  | .legacyLeaderTracker =>
    if starts then .ok .leaderUpdaterService else .error .legacyLeaderUpdaterInitializationFailed
  | .wsLeaderTracker =>
    if starts then .ok .nodeAddressService else .error .websocketNodeAddressServiceError
  | .yellowstoneLeaderTracker _ _ =>
    if starts then .ok .nodeAddressService else .error .nodeAddressServiceError
  | .customLeaderTracker _ =>
    if starts then .ok .nodeAddressService else .error .customGeyserNodeAddressServiceError

/-- `solana_clock::NUM_CONSECUTIVE_LEADER_SLOTS` -/
def NUM_CONSECUTIVE_LEADER_SLOTS : Nat := 4

/-- mirrors tools-common/src/leader_updater.rs:133-137, 165-167 -/
def LeaderUpdater.nextLeaders (lookaheadLeaders : Nat) (view : View) :
    LeaderUpdater → List SocketAddr
  | .pinnedLeaderUpdater address => address
  | .leaderUpdaterService =>
    view.leaderTpuSockets (saturatingMul lookaheadLeaders NUM_CONSECUTIVE_LEADER_SLOTS)
  | .nodeAddressService => view.nextLeaders lookaheadLeaders

/-- mirrors tools-common/src/leader_updater.rs:147-156, 174-183 -/
def LeaderUpdater.getCurrentSlot (view : View) : LeaderUpdater → Nat
  | .pinnedLeaderUpdater _ => 0
  | .leaderUpdaterService | .nodeAddressService => view.currentSlot

/-- The three calls at the head of a tick; the service may change between them.
mirrors rate-latency-tool/src/run_rate_latency_tool_scheduler.rs:53-56 -/
def LeaderUpdater.Answers (updater : LeaderUpdater) (sendFanout : Nat) : SchedulerLabel → Prop
  | .tick currentSlot connectLeaders sendLeaders => ∃ first second third : View,
      currentSlot = updater.getCurrentSlot first ∧
      connectLeaders = updater.nextLeaders (saturatingAdd sendFanout 1) second ∧
      sendLeaders = updater.nextLeaders sendFanout third
  | _ => True

/-- More lookahead only adds leaders. -/
structure View.Grows (view : View) : Prop where
  leaderTpuSockets : ∀ {a b : Nat}, a ≤ b → view.leaderTpuSockets a <+: view.leaderTpuSockets b
  nextLeaders : ∀ {a b : Nat}, a ≤ b → view.nextLeaders a <+: view.nextLeaders b

theorem nextLeaders_prefix {updater : LeaderUpdater} {sendFanout : Nat} {view : View}
    (hv : view.Grows) (h : sendFanout < 2 ^ 64) :
    updater.nextLeaders sendFanout view <+:
      updater.nextLeaders (saturatingAdd sendFanout 1) view := by
  have hle : sendFanout ≤ saturatingAdd sendFanout 1 := by
    unfold saturatingAdd U64_MAX
    omega
  cases updater with
  | pinnedLeaderUpdater address => exact List.prefix_rfl
  | leaderUpdaterService =>
    apply hv.leaderTpuSockets
    unfold saturatingMul NUM_CONSECUTIVE_LEADER_SLOTS
    omega
  | nodeAddressService => exact hv.nextLeaders hle

/-! ## A pinned leader -/

variable {W : Type} (api : WorkersCache W) (toText : SocketAddr → String) (sdk : Sdk)
  (payers : List Keypair) (computeUnitPrice : Option Nat)

/-- The scheduler with this updater. -/
def trackedScheduler (updater : LeaderUpdater) (sendFanout : Nat) :
    LTS (Scheduler W) SchedulerLabel :=
  (scheduler api toText sdk payers computeUnitPrice).guard fun _ l => updater.Answers sendFanout l

/-- A record of a transaction that was offered to the address once. -/
def OfferedOnce (address : SocketAddr) (record : CSVRecord) : Prop :=
  record.sentSlot = some 0 ∧ ∃ status, record.txStatus = [(status, toText address)]

/-- What holds in between: the address is connected to, then offered the transaction. -/
structure Pinned (address : SocketAddr) (s : Scheduler W) : Prop where
  handed : ∀ record ∈ s.handed, OfferedOnce toText address record
  phase : match s.phase with
    | .connecting currentSlot connectLeaders sendLeaders =>
        currentSlot = 0 ∧ sendLeaders = [address] ∧
          (connectLeaders = [address] ∨
            connectLeaders = [] ∧ api.contains s.workers address = true)
    | .sending _ record sendLeaders =>
        (sendLeaders = [address] ∧ api.contains s.workers address = true ∧
          record.sentSlot = some 0 ∧ record.txStatus = []) ∨
        (sendLeaders = [] ∧ OfferedOnce toText address record)
    | .awaitingTick | .ended => True

variable {api toText sdk payers computeUnitPrice} {s s' : Scheduler W} {l : SchedulerLabel}

theorem pinned_offer {address : SocketAddr} (hP : Pinned api toText address s)
    (h : schedulerStep api toText sdk payers computeUnitPrice s .offer = some s') :
    Pinned api toText address s' := by
  simp only [schedulerStep] at h
  split at h
  · rename_i memoTx record newLeader sendLeaders hp
    have hphase := hP.phase
    rw [hp] at hphase
    obtain ⟨hsend, hc, hslot, hnone⟩ | ⟨hsend, -⟩ := hphase
    · cases hsend
      cases h
      unfold Scheduler.offer
      rw [if_pos hc]
      refine ⟨hP.handed, .inr ⟨rfl, hslot, ?_⟩⟩
      rw [hnone]
      exact ⟨_, rfl⟩
    · cases hsend
  · cases h

theorem pinned_step {address : SocketAddr} {sendFanout : Nat}
    (hensure : ∀ w peer, api.contains (api.ensureWorker w peer) peer = true)
    (hP : Pinned api toText address s)
    (ha : (LeaderUpdater.pinnedLeaderUpdater [address]).Answers sendFanout l)
    (h : schedulerStep api toText sdk payers computeUnitPrice s l = some s') :
    Pinned api toText address s' := by
  cases step_move h with
  | tick hp =>
    obtain ⟨first, second, third, rfl, rfl, rfl⟩ := ha
    exact ⟨hP.handed, rfl, rfl, .inl rfl⟩
  | connect hp =>
    have hphase := hP.phase
    rw [hp] at hphase
    obtain ⟨hslot, hsend, hconnect | ⟨hconnect, -⟩⟩ := hphase
    · cases hconnect
      exact ⟨hP.handed, hslot, hsend, .inr ⟨rfl, hensure _ _⟩⟩
    · cases hconnect
  | build hp hb =>
    have hphase := hP.phase
    rw [hp] at hphase
    obtain ⟨rfl, rfl, hconnect | ⟨-, hc⟩⟩ := hphase
    · cases hconnect
    · obtain ⟨payer, signature, -, -, -, -, rfl⟩ := buildTx_spec hb
      exact ⟨hP.handed, .inl ⟨rfl, hc, rfl, rfl⟩⟩
  | panic => exact ⟨hP.handed, trivial⟩
  | offer => exact pinned_offer hP h
  | @sendRecord memoTx record accepted hp =>
    have hphase := hP.phase
    rw [hp] at hphase
    obtain ⟨hsend, -⟩ | ⟨-, honce⟩ := hphase
    · cases hsend
    · refine ⟨?_, trivial⟩
      intro r hr
      rcases List.mem_append.1 hr with hr | hr
      · exact hP.handed r hr
      · rw [List.mem_singleton.1 hr]
        exact honce
  | cancel => exact ⟨hP.handed, hP.phase⟩
  | cancelled => exact ⟨hP.handed, trivial⟩

/-- **With a pinned leader no transaction is skipped**, as long as a worker is there after it was
ensured. -/
theorem pinned_records {address : SocketAddr} {starts : Bool} {sendFanout : Nat}
    {updater : LeaderUpdater}
    (hensure : ∀ w peer, api.contains (api.ensureWorker w peer) peer = true)
    (hu : createLeaderUpdater starts (.pinnedLeaderTracker address) = .ok updater)
    (h : (trackedScheduler api toText sdk payers computeUnitPrice updater sendFanout).Reachable s) :
    ∀ record ∈ s.handed, OfferedOnce toText address record := by
  cases hu
  have hP : Pinned api toText address s := by
    refine LTS.Inductive.reachable (P := Pinned api toText address) ⟨?_, ?_⟩ s h
    · rintro s ⟨workers, rfl⟩
      exact ⟨by simp [Scheduler.init], trivial⟩
    · intro s l s' hP hs
      exact pinned_step hensure hP hs.1 hs.2
  exact hP.handed

/-- Two ticks; the worker is busy at the second. -/
def pinnedRun : List SchedulerLabel :=
  [.tick 0 [leaderA] [leaderA], .connect, .build 300 plainHash, .offer, .sendRecord true,
    .tick 0 [leaderA] [leaderA], .connect, .build 310 plainHash, .offer, .sendRecord true]

theorem pinnedRun_answers :
    ∀ l ∈ pinnedRun, (LeaderUpdater.pinnedLeaderUpdater [leaderA]).Answers 1 l := by
  simp [pinnedRun, LeaderUpdater.Answers, LeaderUpdater.nextLeaders, LeaderUpdater.getCurrentSlot]

theorem pinned_records_two : ∃ s,
    (trackedScheduler plainCache (fun _ => "leader") plainSdk [plainPayer] none
      (.pinnedLeaderUpdater [leaderA]) 1).Reachable s ∧ s.handed.length = 2 ∧
    ∀ record ∈ s.handed, OfferedOnce (fun _ => "leader") leaderA record := by
  have hrun : ∃ s, LTS.exec (schedulerStep plainCache (fun _ => "leader") plainSdk [plainPayer] none)
      (.init ⟨[], [.space, .full], []⟩) pinnedRun = some s ∧ s.handed.length = 2 := ⟨_, rfl, rfl⟩
  obtain ⟨s, hs, hlen⟩ := hrun
  have hreach : (trackedScheduler plainCache (fun _ => "leader") plainSdk [plainPayer] none
      (.pinnedLeaderUpdater [leaderA]) 1).Reachable s :=
    ⟨_, pinnedRun, ⟨_, rfl⟩, (LTS.run_of_exec Scheduler.Started _ _ _ _ hs).guarded
      fun l hl _ => pinnedRun_answers l hl⟩
  refine ⟨s, hreach, hlen, pinned_records ?_ (rfl : createLeaderUpdater true
    (.pinnedLeaderTracker leaderA) = _) hreach⟩
  intro w peer
  by_cases hmem : peer ∈ w.workers <;> simp [plainCache, hmem]

end TpuTools.Sender
