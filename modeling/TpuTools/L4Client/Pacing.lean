import TpuTools.Core.Interval
import TpuTools.L4Client.ToolResult

/-!
# The rate (`rate-latency-tool/src/run_rate_latency_tool_scheduler.rs`)

The scheduler builds one transaction a tick of its `interval(rate)`, and the blockhash updater
requests a blockhash a tick of its own interval. Here the tool of `Tool` takes these steps only
when there is a tick. `interval` panics on a zero period, so the rate is positive.

* `Counts`: the transactions are the ticks.
* **`rate_kept`**: never more transactions than the rate allows, and no fewer when no tick is due.
* **`requests_paced`**: never more requests of the updater than its interval allows.
-/
namespace TpuTools.Client
open Subscriber Writer

variable {P : ToolParams} {s s' : Tool} {l : ToolLabel}

/-- The clock does not go back. -/
theorem now_mono (h : toolStep P s l = some s') : s.updater.now ≤ s'.updater.now := by
  cases (tool_move h).2 with
  | advance => exact Nat.le_add_right _ _
  | updater _ _ _ hnow => exact Nat.le_of_eq hnow.symm
  | _ => exact Nat.le_refl _

/-! ## The scheduler -/

/-- The ticker is created when the endpoint is set up.
mirrors rate-latency-tool/src/run_rate_latency_tool_scheduler.rs:44-52 -/
def schedulerUse : ToolLabel → TickerUse
  | .endpoint true => .creates
  | .tick _ _ _ => .ticks
  | _ => .other

def schedulerPace (rate : Nat) : Pace Tool ToolLabel where
  now s := s.updater.now
  use := schedulerUse
  period := rate

/-- The tool with the ticker of its scheduler. -/
def ratedTool (P : ToolParams) (rate : Nat) : LTS (Paced Tool) ToolLabel :=
  paced (schedulerPace rate) (Tool.Started P) (toolStep P)

/-- `build_tx` is called once a tick, and fails in the last one at most. -/
structure Counts (p : Paced Tool) : Prop where
  before : p.ticker = none → p.state.client.handed = []
  waiting : p.state.scheduler = .notSpawned ∨ p.state.scheduler = .starting → p.ticker = none
  running : p.state.scheduler = .running → p.state.client.handed.length = p.ticks
  most : p.ticker ≠ none → p.state.client.handed.length ≤ p.ticks

theorem sendRecord_handed (c : RunClient) (record : CSVRecord) :
    (c.sendRecord record).handed = c.handed ++ [record] := by
  unfold RunClient.sendRecord
  split <;> rfl

/-- The steps without a tick build nothing, and start the scheduler only once. -/
theorem other_step (h : toolStep P s l = some s') (hl : schedulerUse l = .other) :
    s'.client.handed = s.client.handed ∧ (s'.scheduler = s.scheduler ∨
      (∃ e, s'.scheduler = .ended e) ∨
      (s.main = .creatingLeaderUpdater ∧ s'.scheduler = .starting)) := by
  cases (tool_move h).2 with
  | endpoint | tickEnds | tick => cases hl
  | spawned hm => exact ⟨rfl, .inr (.inr ⟨hm, rfl⟩)⟩
  | noEndpoint | schedulerEnds => exact ⟨rfl, .inr (.inl ⟨_, rfl⟩)⟩
  | _ => exact ⟨rfl, .inl rfl⟩

theorem counts_step {rate : Nat} {p p' : Paced Tool} (hW : Wired P p.state)
    (h : pacedStep (schedulerPace rate) (toolStep P) p l = some p') (hC : Counts p) :
    Counts p' := by
  obtain ⟨t, ht, hmove⟩ := paced_move h
  cases hmove with
  | other hl =>
    obtain ⟨hhanded, hphase⟩ := other_step ht hl
    refine ⟨?_, ?_, ?_, ?_⟩
    · intro hnone
      exact hhanded.trans (hC.before hnone)
    · intro hwait
      rcases hphase with heq | ⟨e, he⟩ | ⟨hm, -⟩
      · exact hC.waiting (heq ▸ hwait)
      · rcases hwait with hw | hw <;> cases he.symm.trans hw
      · exact hC.waiting (.inl (hW.waiting (.inr hm)))
    · intro hrun
      rcases hphase with heq | ⟨e, he⟩ | ⟨-, hstart⟩
      · exact (congrArg List.length hhanded).trans (hC.running (heq ▸ hrun))
      · cases he.symm.trans hrun
      · cases hstart.symm.trans hrun
    · intro hsome
      exact (congrArg List.length hhanded).trans_le (hC.most hsome)
  | creates hl =>
    cases (tool_move ht).2 with
    | endpoint hs =>
      have hnil := hC.before (hC.waiting (.inr hs))
      have hlen : p.state.client.handed.length = 0 := congrArg List.length hnil
      exact ⟨fun hnone => (by cases hnone), fun hwait => (by rcases hwait with hw | hw <;> cases hw),
        fun _ => hlen, fun _ => Nat.le_of_eq hlen⟩
    | _ => cases hl
  | ticks hl hticker =>
    cases (tool_move ht).2 with
    | tickEnds hs =>
      refine ⟨fun hnone => (by cases hnone), ?_, ?_, ?_⟩
      · intro hwait
        rcases hwait with hw | hw <;> cases hw
      · intro hrun
        cases hrun
      · intro _
        have hlen := hC.running hs
        show p.state.client.handed.length ≤ p.ticks + 1
        omega
    | @tick slot timestamp txStatus signature hs =>
      have hlen : (p.state.client.built.sendRecord
          (tickRecord p.state.client signature.toText slot timestamp txStatus)).handed.length =
            p.ticks + 1 := by
        rw [sendRecord_handed, List.length_append, List.length_singleton]
        exact congrArg (· + 1) (hC.running hs)
      refine ⟨fun hnone => (by cases hnone), ?_, fun _ => hlen, fun _ => Nat.le_of_eq hlen⟩
      intro hwait
      have hs' : p.state.scheduler = .notSpawned ∨ p.state.scheduler = .starting := hwait
      rcases hs' with hw | hw <;> cases hs.symm.trans hw
    | _ => cases hl

theorem counts_reachable {rate : Nat} {p : Paced Tool} (h : (ratedTool P rate).Reachable p) :
    Counts p := by
  refine LTS.InductiveOver.reachable (Q := fun p => (tool P).Reachable p.state) (P := Counts)
    ⟨?_, ?_⟩ ?_ p h
  · rintro p ⟨hinit, hnone, hzero⟩
    have hphase : p.state.scheduler = .notSpawned := by
      rcases hinit with hinit | ⟨-, hinit⟩
      · rw [hinit]
        rfl
      · rw [hinit]
        rfl
    refine ⟨?_, fun _ => hnone, ?_, fun hsome => absurd hnone hsome⟩
    · intro _
      rw [started_client hinit]
      rfl
    · intro hrun
      cases hphase.symm.trans hrun
  · intro p l p' hr hC hs
    exact counts_step (wired_reachable hr) hs hC
  · intro p hp
    exact paced_projection.reachable p hp

/-- **The rate.** In every run in which the scheduler ticks when its interval lets it: the
transactions built so far are never more than a tick each `rate` since the scheduler began allows,
and while it runs, whenever no tick is due, they are exactly as many: a late tick is made up. -/
theorem rate_kept {rate : Nat} (hrate : 0 < rate) {p : Paced Tool}
    (h : (ratedTool P rate).Reachable p) :
    (p.ticker = none → p.state.client.handed = []) ∧
    ∀ i, p.ticker = some i →
      p.state.client.handed.length ≤ (p.state.updater.now - p.started) / rate + 1 ∧
      (p.state.scheduler = .running → p.state.updater.now < i.deadline →
        p.state.client.handed.length = (p.state.updater.now - p.started) / rate + 1) := by
  have hC := counts_reachable h
  refine ⟨hC.before, ?_⟩
  intro i hi
  have hO := Paced.onTime_reachable (fun _ _ _ hs => now_mono hs) h hi
  have hle := hO.ticks_le hrate
  have hmost := hC.most (by rw [hi]; exact Option.some_ne_none i)
  refine ⟨Nat.le_trans hmost hle, ?_⟩
  intro hrun hdue
  rw [hC.running hrun]
  exact hO.ticks_eq hrate hdue

/-- The first tick is on time, the next two come late and together. -/
def lateTicks : List ToolLabel :=
  [.blockhash (some Sender.plainHash), .leaderUpdater true, .updater (.advance 7), .endpoint true,
    .tick 20 300 [(.sent, "leader")], .updater (.advance (10 * 10 ^ 9)),
    .tick 45 310 [(.sent, "leader")], .tick 45 310 [(.fullChannel, "leader")]]

theorem rate_kept_late : ∃ p, (ratedTool tenSeconds (5 * 10 ^ 9)).Reachable p ∧
    p.state.updater.now - p.started = 10 * 10 ^ 9 ∧ p.state.client.handed.length = 3 := by
  obtain ⟨p, hp, hv⟩ := @LTS.reachable_of_view _ _ _ (Paced.Started (Tool.Started tenSeconds))
    (pacedStep (schedulerPace (5 * 10 ^ 9)) (toolStep tenSeconds))
    ⟨.init tenSeconds, none, 0, 0⟩ ⟨.inl rfl, rfl, rfl⟩ lateTicks
    (fun p => (p.ticker, p.state.updater.now, p.started, p.state.scheduler))
    (some ⟨5 * 10 ^ 9, 15 * 10 ^ 9 + 7⟩, 10 * 10 ^ 9 + 7, 7, .running) rfl
  simp only [Prod.mk.injEq] at hv
  obtain ⟨hticker, hnow, hstarted, hrun⟩ := hv
  have hcount := ((rate_kept (by decide) hp).2 _ hticker).2 hrun (by rw [hnow]; decide)
  have helapsed : p.state.updater.now - p.started = 10 * 10 ^ 9 := by
    rw [hnow, hstarted]
    rfl
  refine ⟨p, hp, helapsed, ?_⟩
  rw [hcount, helapsed]
  decide

/-! ## The updater -/

/-- mirrors tools-common/src/blockhash_updater.rs:77-79 -/
def updaterUse : ToolLabel → TickerUse
  | .updater .start => .creates
  | .updater (.answer _) => .ticks
  | _ => .other

def updaterPace (P : ToolParams) : Pace Tool ToolLabel where
  now s := s.updater.now
  use := updaterUse
  period := P.updater.updateInterval

/-- **The requests.** In every run in which the updater ticks when its interval lets it, it has no
more answers than a request each `update_interval` since it began. -/
theorem requests_paced (hperiod : 0 < P.updater.updateInterval) {p : Paced Tool}
    (h : (paced (updaterPace P) (Tool.Started P) (toolStep P)).Reachable p) {i : Interval}
    (hi : p.ticker = some i) :
    p.ticks ≤ (p.state.updater.now - p.started) / P.updater.updateInterval + 1 :=
  (Paced.onTime_reachable (fun _ _ _ hs => now_mono hs) h hi).ticks_le hperiod

end TpuTools.Client
