import TpuTools.L2Sender.Scheduler
import TpuTools.L4Client.RunClient

/-!
# The ticks of `client` are ticks of the scheduler

`RunClient` takes a tick of the scheduler as one step, with any `tx_status`. Here the scheduler's
own steps are followed by it: a tick counts when the record is handed over. The tracker task
runs, so it accepts the records.

* `Follows`: what the two have in common in between.
* **`scheduler_refines`**: every scheduler state is followed by a reachable client.
-/
namespace TpuTools.Client
open Sender Writer

variable {W : Type} (api : WorkersCache W) (toText : SocketAddr → String) (sdk : Sdk)
  (payers : List Keypair) (computeUnitPrice : Option Nat)

/-- The client has the records handed over so far; it builds a tick's transaction later. -/
structure Follows (s : Scheduler W) (c : RunClient) : Prop where
  handed : c.handed = s.handed
  cancelled : s.cancelled = true → c.sendCancelled = true
  running : s.phase ≠ .ended → c.schedulerRunning = true ∧
    c.writer.track = .running ∧ c.writer.trackOpen = true
  build : match s.phase with
    | .sending memoTx record _ => ∃ slot timestamp blockhash id built,
        buildTx sdk payers computeUnitPrice c.build slot timestamp blockhash =
          some (s.build, id, memoTx, built) ∧ record = { built with txStatus := record.txStatus }
    | _ => c.build = s.build

variable {api toText sdk payers computeUnitPrice} {s s' : Scheduler W} {c : RunClient}

theorem follows_init (workers : W) :
    Follows sdk payers computeUnitPrice (.init workers) RunClient.init :=
  ⟨rfl, by simp [Scheduler.init], fun _ => ⟨rfl, rfl, rfl⟩, rfl⟩

/-- The tick of a built transaction, at the time its record is handed over. -/
theorem tick_of_built {slot timestamp id : Nat} {blockhash : Hash} {memoTx : Bytes}
    {build : BuildState} {built record : CSVRecord}
    (hb : buildTx sdk payers computeUnitPrice c.build slot timestamp blockhash =
      some (build, id, memoTx, built))
    (hrec : record = { built with txStatus := record.txStatus })
    (hrun : c.schedulerRunning = true) (htrack : c.writer.track = .running)
    (hopen : c.writer.trackOpen = true) :
    clientStep sdk payers computeUnitPrice c (.tick slot timestamp blockhash record.txStatus) =
      some { c with
        build := build
        writer := { c.writer with
          trackChan := c.writer.trackChan ++ [record], sent := c.writer.sent ++ [record] }
        handed := c.handed ++ [record] } := by
  have hsend : c.writer.sendTracked record = some { c.writer with
      trackChan := c.writer.trackChan ++ [record], sent := c.writer.sent ++ [record] } :=
    if_pos ⟨hopen, htrack⟩
  simp only [clientStep, if_pos hrun, hb, ← hrec, RunClient.sendRecord, hsend]

theorem follows_step {l : SchedulerLabel}
    (h : schedulerStep api toText sdk payers computeUnitPrice s l = some s')
    (hl : l ≠ .sendRecord false) (hf : Follows sdk payers computeUnitPrice s c) :
    ∃ ks c', (client sdk payers computeUnitPrice).Run c ks c' ∧
      Follows sdk payers computeUnitPrice s' c' := by
  obtain ⟨hhanded, hcancelled, hrunning, hbuild⟩ := hf
  cases Sender.step_move h with
  | tick hp | connect hp =>
    rw [hp] at hbuild hrunning
    exact ⟨[], c, .nil _, hhanded, hcancelled, fun _ => hrunning (by simp), hbuild⟩
  | build hp hb =>
    rw [hp] at hbuild hrunning
    refine ⟨[], c, .nil _, hhanded, hcancelled, fun _ => hrunning (by simp), ?_⟩
    rw [← hbuild] at hb
    exact ⟨_, _, _, _, _, hb, rfl⟩
  | @panic currentSlot timestamp blockhash sendLeaders hp hb =>
    rw [hp] at hbuild hrunning
    obtain ⟨hrun, -, -⟩ := hrunning (by simp)
    rw [← hbuild] at hb
    refine ⟨[.tick currentSlot timestamp blockhash []], c.schedulerDropped, .single ?_, hhanded,
      hcancelled, fun hne => absurd rfl hne, hbuild⟩
    show clientStep sdk payers computeUnitPrice c _ = _
    simp only [clientStep, if_pos hrun, hb]
  | @offer memoTx record rest o workers hp htx hg =>
    rw [hp] at hbuild hrunning
    obtain ⟨slot, timestamp, blockhash, id, built, hb, hrec⟩ := hbuild
    refine ⟨[], c, .nil _, hhanded, hcancelled, fun _ => hrunning (by simp),
      slot, timestamp, blockhash, id, built, hb, ?_⟩
    rw [hrec]
  | @sendRecord memoTx record accepted hp =>
    rw [hp] at hbuild hrunning
    obtain ⟨slot, timestamp, blockhash, id, built, hb, hrec⟩ := hbuild
    obtain ⟨hrun, htrack, hopen⟩ := hrunning (by simp)
    have haccepted : accepted = true := by
      cases accepted with
      | true => rfl
      | false => exact absurd rfl hl
    refine ⟨_, _, .single (tick_of_built hb hrec hrun htrack hopen), ?_, ?_, ?_, rfl⟩
    · rw [hhanded]
    · intro hc
      exact hcancelled (by simpa [haccepted] using hc)
    · exact fun _ => ⟨hrun, htrack, hopen⟩
  | cancel =>
    exact ⟨[.cancelSending], { c with sendCancelled := true }, .single rfl, hhanded, fun _ => rfl,
      hrunning, hbuild⟩
  | cancelled hp hc =>
    rw [hp] at hbuild hrunning
    obtain ⟨hrun, -, -⟩ := hrunning (by simp)
    refine ⟨[.schedulerEnds], c.schedulerDropped, .single ?_, hhanded, hcancelled,
      fun hne => absurd rfl hne, hbuild⟩
    exact if_pos ⟨hrun, hcancelled hc⟩

/-- **The client follows the scheduler.** -/
theorem scheduler_refines
    (h : ((scheduler api toText sdk payers computeUnitPrice).guard
      fun _ l => l ≠ .sendRecord false).Reachable s) :
    ∃ c, (client sdk payers computeUnitPrice).Reachable c ∧
      Follows sdk payers computeUnitPrice s c := by
  refine LTS.Simulation.reachable ⟨?_, ?_⟩ s h
  · intro s hs
    obtain ⟨workers, rfl⟩ : s.Started := hs
    exact ⟨.init, rfl, follows_init workers⟩
  · intro s c l s' hf ⟨hl, hs⟩
    exact follows_step hs hl hf

/-- The run cancelled in its second tick. -/
theorem scheduler_refines_cancelledRun :
    ∃ c, (client plainSdk [plainPayer] none).Reachable c ∧
      c.handed.map (·.txStatus) =
        [[(.sent, "leader"), (.receiverDropped, "leader")], [(.fullChannel, "leader")]] := by
  obtain ⟨s, hs, hv⟩ := @LTS.guard_reachable_of_view _ _ _ Scheduler.Started
    (schedulerStep plainCache (fun _ => "leader") plainSdk [plainPayer] none)
    (fun _ l => l ≠ .sendRecord false) (fun _ _ => inferInstance)
    (.init ⟨[], [.space, .dropped, .full], []⟩) ⟨_, rfl⟩ cancelledRun
    (fun s => s.handed.map (·.txStatus))
    [[(.sent, "leader"), (.receiverDropped, "leader")], [(.fullChannel, "leader")]]
    (by decide +kernel)
  obtain ⟨c, hc, hf⟩ := scheduler_refines hs
  exact ⟨c, hc, by rw [hf.handed]; exact hv⟩

end TpuTools.Client
