import TpuTools.L4Client.ToolTasks

/-!
# What `run_client` returns (`rate-latency-tool/src/run_client.rs`)

* `Joins`: the tasks that are joined and those that are not are the ones that were spawned, and
  an ending is final.
* **`run_client_returns`**: `run_client` returns when every task has ended; the result is the
  failure joined last, and `Ok` when there is none.
* `Causes`: who has cancelled the tokens.
* **`stops_in_time`**: without a failing task and without a signal, sending is cancelled by the
  timeout, not before the duration is over, and updates are received for two seconds more. A
  writer that could not create its file takes no records, so the scheduler cancels sending, which
  can be before that failure is joined (`tick_uncreated`).
-/
namespace TpuTools.Client
open Subscriber Writer

variable {P : ToolParams} {s s' : Tool} {l : ToolLabel}

/-! ## Joined tasks -/

/-- All tasks of a run that gets to the last loop. -/
def ToolParams.spawned (P : ToolParams) : List TaskName :=
  P.early ++ [.blockhashUpdater] ++ [.stats, .scheduler]

/-- The result of the last loop. -/
def lastFailure (joined : List (TaskName × Ending)) : Except RateLatencyToolError Unit :=
  match (joined.filterMap fun x => x.2.failure).getLast? with
  | none => .ok ()
  | some error => .error error

theorem lastFailure_snoc_none {joined : List (TaskName × Ending)} {x : TaskName × Ending}
    (h : x.2.failure = none) : lastFailure (joined ++ [x]) = lastFailure joined := by
  unfold lastFailure
  rw [List.filterMap_append, List.filterMap_cons, h, List.filterMap_nil, List.append_nil]

theorem lastFailure_snoc_some {joined : List (TaskName × Ending)} {x : TaskName × Ending}
    {error : RateLatencyToolError} (h : x.2.failure = some error) :
    lastFailure (joined ++ [x]) = .error error := by
  unfold lastFailure
  rw [List.filterMap_append, List.filterMap_cons, h, List.filterMap_nil, List.getLast?_concat]

theorem lastFailure_ok_iff {joined : List (TaskName × Ending)} :
    lastFailure joined = .ok () ↔ ∀ x ∈ joined, x.2 = succeeded := by
  unfold lastFailure
  constructor
  · intro h x hx
    split at h
    · rename_i hnone
      rw [List.getLast?_eq_none_iff, List.filterMap_eq_nil_iff] at hnone
      exact failure_eq_none.1 (hnone x hx)
    · cases h
  · intro h
    have hnil : (joined.filterMap fun x => x.2.failure) = [] :=
      List.filterMap_eq_nil_iff.2 fun x hx => failure_eq_none.2 (h x hx)
    rw [hnil]
    rfl

/-- What is spawned, joined and left in each phase. -/
def Accounted (P : ToolParams) (s : Tool) : Prop :=
  match s.main with
  | .fetchingBlockhash | .panicked => s.joined = [] ∧ s.unjoined = P.early
  | .creatingLeaderUpdater => s.joined = [] ∧ s.unjoined = P.early ++ [.blockhashUpdater]
  | .joining => (s.joined.map (·.1) ++ s.unjoined).Perm P.spawned
  | .returned r =>
    (P.stakedIdentity = true ∧ r = .error .keypairReadFailure ∧ s = .unidentified P) ∨
      (r = .error .leaderUpdaterError ∧ s.joined = []) ∨
      ((s.joined.map (·.1)).Perm P.spawned ∧ r = s.result)

structure Joins (P : ToolParams) (s : Tool) : Prop where
  accounted : Accounted P s
  result : s.result = lastFailure s.joined
  final : ∀ x ∈ s.joined, s.ending x.1 = some x.2
  cancelled : ∀ x ∈ s.joined, x.2 ≠ succeeded → s.cancelled = true

/-- Before `run_client` has returned, only the lists count. -/
theorem Accounted.congr (hopen : s.main.over = false) (hm : s'.main = s.main)
    (hj : s'.joined = s.joined) (hu : s'.unjoined = s.unjoined) (h : Accounted P s) :
    Accounted P s' := by
  unfold Accounted at h ⊢
  rw [hm, hj, hu]
  cases hmain : s.main with
  | returned r =>
    rw [hmain] at hopen
    cases hopen
  | _ =>
    rw [hmain] at h
    exact h

/-- Nothing is joined before the last loop. -/
theorem Joins.none_joined (hJ : Joins P s) (hopen : s.main.over = false) (hm : s.main ≠ .joining) :
    s.joined = [] := by
  have hacc := hJ.accounted
  unfold Accounted at hacc
  cases hmain : s.main with
  | joining => exact absurd hmain hm
  | fetchingBlockhash | creatingLeaderUpdater =>
    rw [hmain] at hacc
    exact hacc.1
  | returned | panicked =>
    rw [hmain] at hopen
    cases hopen

/-- A step that joins nothing. -/
theorem Joins.quiet (hJ : Joins P s) (h : toolStep P s l = some s') (hm : s'.main = s.main)
    (hj : s'.joined = s.joined) (hu : s'.unjoined = s.unjoined) (hr : s'.result = s.result)
    (hc : s.cancelled = true → s'.cancelled = true) : Joins P s' := by
  refine ⟨hJ.accounted.congr (tool_move h).1 hm hj hu, ?_, ?_, ?_⟩
  · rw [hr, hj]
    exact hJ.result
  · intro x hx
    rw [hj] at hx
    by_cases hmain : s.main = .joining
    · exact ending_step h hmain (hJ.final x hx)
    · rw [hJ.none_joined (tool_move h).1 hmain] at hx
      cases hx
  · intro x hx hne
    rw [hj] at hx
    exact hc (hJ.cancelled x hx hne)

/-- A joined task changes its list. -/
theorem Accounted.join {task : TaskName} {e : Ending} (ht : task ∈ s.unjoined)
    (h : (s.joined.map (·.1) ++ s.unjoined).Perm P.spawned) :
    ((s.joined ++ [(task, e)]).map (·.1) ++ s.unjoined.erase task).Perm P.spawned := by
  refine List.Perm.trans ?_ h
  rw [List.map_append, List.append_assoc]
  exact (List.perm_cons_erase ht).symm.append_left _

theorem Joins.join (hJ : Joins P s) (h : toolStep P s l = some s') (hm : s.main = .joining)
    (hm' : s'.main = .joining) {task : TaskName} {e : Ending} (ht : task ∈ s.unjoined)
    (he : s.ending task = some e) (hj : s'.joined = s.joined ++ [(task, e)])
    (hu : s'.unjoined = s.unjoined.erase task)
    (hr : s'.result = lastFailure (s.joined ++ [(task, e)]))
    (hc : s.cancelled = true ∨ e ≠ succeeded → s'.cancelled = true) : Joins P s' := by
  have hacc := hJ.accounted
  unfold Accounted at hacc
  rw [hm] at hacc
  refine ⟨?_, ?_, ?_, ?_⟩
  · unfold Accounted
    rw [hm', hj, hu]
    exact Accounted.join ht hacc
  · rw [hr, hj]
  · intro x hx
    rw [hj] at hx
    rcases List.mem_append.1 hx with hx | hx
    · exact ending_step h hm (hJ.final x hx)
    · rw [List.mem_singleton.1 hx]
      exact ending_step h hm he
  · intro x hx hne
    rw [hj] at hx
    rcases List.mem_append.1 hx with hx | hx
    · exact hc (.inl (hJ.cancelled x hx hne))
    · rw [List.mem_singleton.1 hx] at hne
      exact hc (.inr hne)

theorem joins_step (h : toolStep P s l = some s') (hJ : Joins P s) : Joins P s' := by
  have hacc := hJ.accounted
  unfold Accounted at hacc
  have hcancel := cancelled_step h
  cases (tool_move h).2 with
  | fetched hm | notFetched hm =>
    rw [hm] at hacc
    refine ⟨?_, hJ.result, ?_, hJ.cancelled⟩
    · unfold Accounted
      simp [hacc]
    · intro x hx
      rw [hacc.1] at hx
      cases hx
  | spawned hm =>
    rw [hm] at hacc
    refine ⟨?_, hJ.result, ?_, hJ.cancelled⟩
    · unfold Accounted
      simp only [hacc, List.map_nil, List.nil_append]
      exact List.Perm.refl _
    · intro x hx
      rw [hacc.1] at hx
      cases hx
  | noLeaderUpdater hm =>
    rw [hm] at hacc
    exact ⟨.inr (.inl ⟨rfl, hacc.1⟩), hJ.result, hJ.final, hJ.cancelled⟩
  | @join task hm ht he =>
    refine hJ.join h hm hm ht he rfl rfl ?_ ?_
    · rw [lastFailure_snoc_none rfl]
      exact hJ.result
    · intro hc
      rcases hc with hc | hc
      · exact hcancel hc
      · exact absurd rfl hc
  | @joinFailed task e error hm ht he hf =>
    exact hJ.join h hm hm ht he rfl rfl (lastFailure_snoc_some hf).symm fun _ => rfl
  | finish hm hu =>
    rw [hm] at hacc
    refine ⟨.inr (.inr ⟨?_, rfl⟩), hJ.result, hJ.final, hJ.cancelled⟩
    rw [hu, List.append_nil] at hacc
    exact hacc
  | _ => exact hJ.quiet h rfl rfl rfl rfl hcancel

theorem joins_reachable (h : (tool P).Reachable s) : Joins P s := by
  refine LTS.Inductive.reachable (P := Joins P) ⟨?_, ?_⟩ s h
  · rintro s (rfl | ⟨hidentity, rfl⟩)
    · exact ⟨⟨rfl, rfl⟩, rfl, by simp [Tool.init], by simp [Tool.init]⟩
    · exact ⟨.inl ⟨hidentity, rfl, rfl⟩, rfl, by simp [Tool.unidentified, Tool.init],
        by simp [Tool.unidentified, Tool.init]⟩
  · intro s l s' hJ hs
    exact joins_step hs hJ

/-- **The result.** In every run, whatever the tasks do and in whatever order they end: unless the
identity file could not be read, and then nothing was spawned, or the leader updater could not be
created, `run_client` returns when each of its tasks has ended and was joined once. It returns the
failure that was joined last, and `Ok` exactly when every task succeeded; after a failure the
parent token is cancelled. -/
theorem run_client_returns (h : (tool P).Reachable s) {r : Except RateLatencyToolError Unit}
    (hr : s.main = .returned r) :
    (P.stakedIdentity = true ∧ r = .error .keypairReadFailure ∧ s = .unidentified P) ∨
    (r = .error .leaderUpdaterError ∧ s.joined = []) ∨
    ((s.joined.map (·.1)).Perm P.spawned ∧ (∀ x ∈ s.joined, s.ending x.1 = some x.2) ∧
      r = lastFailure s.joined ∧
      (r = .ok () ↔ ∀ task ∈ P.spawned, s.ending task = some succeeded) ∧
      (r ≠ .ok () → s.cancelled = true)) := by
  have hJ := joins_reachable h
  have hacc := hJ.accounted
  unfold Accounted at hacc
  rw [hr] at hacc
  rcases hacc with hidentity | hearly | ⟨hperm, hres⟩
  · exact .inl hidentity
  · exact .inr (.inl hearly)
  have hlast : r = lastFailure s.joined := hres.trans hJ.result
  refine .inr (.inr ⟨hperm, hJ.final, hlast, ?_, ?_⟩)
  · rw [hlast, lastFailure_ok_iff]
    constructor
    · intro hall task ht
      obtain ⟨x, hx, rfl⟩ := List.mem_map.1 (hperm.mem_iff.2 ht)
      rw [hJ.final x hx, hall x hx]
    · intro hall x hx
      have hmem : x.1 ∈ P.spawned := hperm.mem_iff.1 (List.mem_map_of_mem hx)
      exact Option.some.inj ((hJ.final x hx).symm.trans (hall x.1 hmem))
  · intro hne
    by_contra hc
    apply hne
    rw [hlast, lastFailure_ok_iff]
    intro x hx
    by_contra hfail
    exact hc (hJ.cancelled x hx hfail)

/-! ## A run -/

def tenSeconds : ToolParams where
  sdk := Sender.plainSdk
  payers := [Sender.plainPayer]
  stakedIdentity := true
  computeUnitPrice := none
  checks := true
  known := noAccounts
  updater := .default
  output := true
  duration := some (10 * 10 ^ 9)

/-- One transaction is sent, then the duration is over; everything is cancelled two seconds
later. -/
def cancelledLabels : List ToolLabel :=
  [.createFile true, .blockhash (some Sender.plainHash), .leaderUpdater true, .endpoint true,
    .updater .start, .tick 20 300 [(.sent, "leader")], .writer .trackInsert,
    .updater (.advance (10 * 10 ^ 9)), .timeoutElapsed, .schedulerEnds, .updater .isClosed, .statsEnds,
    .updater (.advance (2 * 10 ^ 9)), .delayElapsed]

/-- The tasks end and are joined. -/
def endingLabels : List ToolLabel :=
  [.subscriberCancelled, .writer .blockCancelled, .writer .sweepCancelled,
    .writer .trackCancelled, .writer .writerTake, .writer (.writeRow true), .writer (.flush true),
    .writer .writerClosed, .join .stats, .join .csvWriter, .join .scheduler, .join .subscriber,
    .join .blockhashUpdater, .join .timeout, .finish]

theorem tenSeconds_reachable {α : Type} (ls : List ToolLabel) (view : Tool → α) (a : α)
    (h : (LTS.exec (toolStep tenSeconds) (.init tenSeconds) ls).map view = some a) :
    ∃ s, (tool tenSeconds).Reachable s ∧ view s = a :=
  @LTS.reachable_of_view _ _ _ (Tool.Started tenSeconds) (toolStep tenSeconds) _ (.inl rfl) ls view
    a h

theorem run_client_returns_ok : ∃ s, (tool tenSeconds).Reachable s ∧ s.main = .returned (.ok ()) ∧
    (s.joined.map (·.1)).Perm tenSeconds.spawned ∧
    ∀ task ∈ tenSeconds.spawned, s.ending task = some succeeded := by
  obtain ⟨s, hs, hmain⟩ := tenSeconds_reachable (cancelledLabels ++ endingLabels) (·.main)
    (.returned (.ok ())) rfl
  rcases run_client_returns hs hmain with ⟨-, he, -⟩ | ⟨he, -⟩ | ⟨hperm, -, -, hok, -⟩
  · cases he
  · cases he
  · exact ⟨s, hs, hmain, hperm, hok.1 rfl⟩

/-! ## Cancellations -/

/-- When the timeout did what it has done. -/
def Timely (P : ToolParams) (s : Tool) : Prop :=
  match s.timeout with
  | .draining since => (∃ duration, P.duration = some duration ∧ duration ≤ since) ∧
      since ≤ s.updater.now
  | .fired since now => (∃ duration, P.duration = some duration ∧ duration ≤ since) ∧
      (P.output = true → since + YELLOWSTONE_STREAM_SHUTDOWN_DELAY ≤ now) ∧ since ≤ now ∧
      now ≤ s.updater.now
  | _ => True

/-- Who has cancelled the tokens. -/
structure Causes (P : ToolParams) (s : Tool) : Prop where
  timely : Timely P s
  root : s.cancelled = true → s.signalled = true ∨ (∃ x ∈ s.joined, x.2 ≠ succeeded) ∨
    ∃ since now, s.timeout = .fired since now
  child : s.client.sendCancelled = true → s.cancelled = true ∨
    (∃ since, s.timeout = .draining since) ∨ s.csvFile = .failed

theorem Timely.congr (ht : s'.timeout = s.timeout) (hn : s.updater.now ≤ s'.updater.now)
    (h : Timely P s) : Timely P s' := by
  unfold Timely at h ⊢
  rw [ht]
  split
  · rename_i since heq
    rw [heq] at h
    exact ⟨h.1, h.2.trans hn⟩
  · rename_i since now heq
    rw [heq] at h
    exact ⟨h.1, h.2.1, h.2.2.1, h.2.2.2.trans hn⟩
  · trivial

/-- A step that cancels nothing. -/
theorem Causes.quiet (hC : Causes P s) (ht : s'.timeout = s.timeout)
    (hn : s.updater.now ≤ s'.updater.now) (hsig : s'.signalled = s.signalled)
    (hj : s.joined ⊆ s'.joined) (hf : s.csvFile = .failed → s'.csvFile = .failed)
    (hc : s'.cancelled = s.cancelled)
    (hchild : s'.client.sendCancelled = s.client.sendCancelled) : Causes P s' := by
  refine ⟨hC.timely.congr ht hn, ?_, ?_⟩
  · intro hroot
    rw [hc] at hroot
    rw [hsig, ht]
    rcases hC.root hroot with h | ⟨x, hx, hne⟩ | h
    · exact .inl h
    · exact .inr (.inl ⟨x, hj hx, hne⟩)
    · exact .inr (.inr h)
  · intro hsend
    rw [hchild] at hsend
    rw [hc, ht]
    rcases hC.child hsend with h | h | h
    · exact .inl h
    · exact .inr (.inl h)
    · exact .inr (.inr (hf h))

theorem causes_tick {signature : String} {slot timestamp : Nat}
    {txStatus : List (TransactionSendStatus × String)} (hs : s.scheduler = .running)
    (hr : s.csvFile ≠ .failed → Writer.lts.Reachable s.client.writer) (hW : Wired P s)
    (hC : Causes P s) : Causes P { s with
      client := s.client.built.sendRecord (tickRecord s.client signature slot timestamp txStatus) }
    := by
  obtain ⟨-, hopen⟩ := hW.sender (by rw [hs]; rfl)
  have hkept := sendRecord_cancelled s.client.built
    (tickRecord s.client signature slot timestamp txStatus)
  by_cases hrefuses : s.cancelled = true ∨ s.csvFile = .failed
  · -- the record may be refused
    refine ⟨hC.timely.congr rfl (Nat.le_refl _), fun hroot => hC.root (hkept.symm.trans hroot),
      fun _ => ?_⟩
    rcases hrefuses with hc | hf
    · exact .inl (hkept.trans hc)
    · exact .inr (.inr hf)
  · rw [not_or] at hrefuses
    obtain ⟨hc, hf⟩ := hrefuses
    obtain ⟨w, hw, heq⟩ := sendRecord_taken (s := s.client.built)
      (tickRecord s.client signature slot timestamp txStatus) hopen
      (tracker_listens (hr hf) hW.promised hopen (Bool.eq_false_iff.2 hc))
    obtain ⟨-, rfl⟩ := of_guard hw
    rw [heq]
    exact hC.quiet rfl (Nat.le_refl _) rfl (List.Subset.refl _) id rfl rfl

theorem causes_step (h : toolStep P s l = some s')
    (hr : s.csvFile ≠ .failed → Writer.lts.Reachable s.client.writer)
    (hW : Wired P s) (hC : Causes P s) : Causes P s' := by
  cases (tool_move h).2 with
  | tick hs => exact causes_tick hs hr hW hC
  | fetched | notFetched | spawned | noLeaderUpdater | endpoint | noEndpoint | tickEnds
  | schedulerEnds | subscriberEnds | subscriberCancelled | statsEnds | finish =>
    exact hC.quiet rfl (Nat.le_refl _) rfl (List.Subset.refl _) id rfl rfl
  | fileCreated hf =>
    refine hC.quiet rfl (Nat.le_refl _) rfl (List.Subset.refl _) ?_ rfl rfl
    intro hfailed
    cases hf.symm.trans hfailed
  | fileFailed =>
    exact hC.quiet rfl (Nat.le_refl _) rfl (List.Subset.refl _) (fun _ => rfl) rfl rfl
  | writer _ hown _ hw =>
    exact hC.quiet rfl (Nat.le_refl _) rfl (List.Subset.refl _) id (own_keeps hown hw).2.2 rfl
  | subscriber hpl hp =>
    exact hC.quiet rfl (Nat.le_refl _) rfl (List.Subset.refl _) id
      (subscriber_keeps hp hpl).2.2 rfl
  | advance => exact hC.quiet rfl (Nat.le_add_right _ _) rfl (List.Subset.refl _) id rfl rfl
  | updater _ _ _ hnow => exact hC.quiet rfl hnow.ge rfl (List.Subset.refl _) id rfl rfl
  | stopSending ht hd hnow =>
    refine ⟨⟨⟨_, hd, hnow⟩, Nat.le_refl _⟩, ?_, fun _ => .inr (.inl ⟨_, rfl⟩)⟩
    intro hroot
    rcases hC.root hroot with h | h | ⟨since, now, h⟩
    · exact .inl h
    · exact .inr (.inl h)
    · cases ht.symm.trans h
  | stopAll ht hd hnow ho =>
    refine ⟨⟨⟨_, hd, hnow⟩, ?_, Nat.le_refl _, Nat.le_refl _⟩, fun _ => .inr (.inr ⟨_, _, rfl⟩),
      fun _ => .inl rfl⟩
    intro ho'
    cases ho.symm.trans ho'
  | delayElapsed ht hnow =>
    have htimely := hC.timely
    unfold Timely at htimely
    rw [ht] at htimely
    exact ⟨⟨htimely.1, fun _ => hnow, htimely.2, Nat.le_refl _⟩,
      fun _ => .inr (.inr ⟨_, _, rfl⟩), fun _ => .inl rfl⟩
  | timeoutCancelled ht hc =>
    refine ⟨trivial, ?_, fun _ => .inl hc⟩
    intro hroot
    rcases hC.root hroot with h | h | ⟨since, now, h⟩
    · exact .inl h
    · exact .inr (.inl h)
    · cases ht.symm.trans h
  | signal =>
    exact ⟨hC.timely.congr rfl (Nat.le_refl _), fun _ => .inl rfl, fun _ => .inl rfl⟩
  | join => exact hC.quiet rfl (Nat.le_refl _) rfl (List.subset_append_left _ _) id rfl rfl
  | @joinFailed task e error hm ht he hf =>
    refine ⟨hC.timely.congr rfl (Nat.le_refl _), fun _ => .inr (.inl ⟨(task, e), ?_, ?_⟩),
      fun _ => .inl rfl⟩
    · exact List.mem_append_right _ (List.mem_singleton.2 rfl)
    · intro he'
      rw [show e = succeeded from he'] at hf
      cases hf

theorem causes_reachable (h : (tool P).Reachable s) : Causes P s := by
  refine LTS.InductiveOver.reachable (P := Causes P)
    (Q := fun s => (s.csvFile ≠ .failed → Writer.lts.Reachable s.client.writer) ∧ Wired P s)
    ⟨?_, ?_⟩ (fun s hs => ⟨tool_writer_reachable hs, wired_reachable hs⟩) s h
  · rintro s (rfl | ⟨-, rfl⟩)
    · refine ⟨?_, fun hc => Bool.noConfusion hc, fun hc => Bool.noConfusion hc⟩
      unfold Timely Tool.init
      simp only
      split
      · rename_i heq
        split at heq <;> cases heq
      · rename_i heq
        split at heq <;> cases heq
      · trivial
    · exact ⟨trivial, fun hc => Bool.noConfusion hc, fun hc => Bool.noConfusion hc⟩
  · intro s l s' ⟨hr, hW⟩ hC hs
    exact causes_step hs hr hW hC

/-- A writer without its file takes no record: the tick that has one for it cancels sending,
whatever the time. -/
theorem tick_uncreated (h : (tool P).Reachable s) (hf : s.csvFile = .failed)
    {slot timestamp : Nat} {txStatus : List (TransactionSendStatus × String)}
    (hs : toolStep P s (.tick slot timestamp txStatus) = some s') :
    s'.client.sendCancelled = true ∨ s'.scheduler = .ended .panicked := by
  have hfinished := uncreated_finished h hf
  simp only [CsvWriter.finished, Bool.and_eq_true] at hfinished
  obtain ⟨⟨-, htrack⟩, -⟩ := hfinished
  cases (tool_move hs).2 with
  | tickEnds => exact .inr rfl
  | @tick _ _ _ signature =>
    rcases sendRecord_cases s.client.built
      (tickRecord s.client signature.toText slot timestamp txStatus) with ⟨w, hw, -⟩ | heq
    · obtain ⟨⟨-, hrun⟩, -⟩ := of_guard hw
      have hrun' : s.client.writer.track = .running := hrun
      simp [CsvWriter.trackDone, hrun'] at htrack
    · left
      simp only [heq]

/-- **Stopping in time.** As long as no joined task has failed, the token was not cancelled from
outside and the output file could be created: sending is cancelled by the timeout alone, and
only when the duration is over; the writer and the subscriber are cancelled after it, with an
output file no earlier than two seconds later. Without a duration nothing is cancelled. -/
theorem stops_in_time (h : (tool P).Reachable s) (hsig : s.signalled = false)
    (hjoined : ∀ x ∈ s.joined, x.2 = succeeded) (hfile : s.csvFile ≠ .failed) :
    (s.client.sendCancelled = true → ∃ duration, P.duration = some duration ∧
      duration ≤ s.updater.now) ∧
    (s.cancelled = true → ∃ duration since, P.duration = some duration ∧ duration ≤ since ∧
      if P.output then since + YELLOWSTONE_STREAM_SHUTDOWN_DELAY ≤ s.updater.now
      else since ≤ s.updater.now) := by
  have hC := causes_reachable h
  have htimely := hC.timely
  unfold Timely at htimely
  have hroot : s.cancelled = true → ∃ since now, s.timeout = .fired since now := by
    intro hc
    rcases hC.root hc with h | ⟨x, hx, hne⟩ | h
    · cases hsig.symm.trans h
    · exact absurd (hjoined x hx) hne
    · exact h
  constructor
  · intro hsend
    rcases hC.child hsend with hc | ⟨since, ht⟩ | hf
    · obtain ⟨since, now, ht⟩ := hroot hc
      rw [ht] at htimely
      obtain ⟨⟨duration, hd, hle⟩, -, hnow, hnow'⟩ := htimely
      exact ⟨duration, hd, by omega⟩
    · rw [ht] at htimely
      obtain ⟨⟨duration, hd, hle⟩, hnow⟩ := htimely
      exact ⟨duration, hd, by omega⟩
    · exact absurd hf hfile
  · intro hc
    obtain ⟨since, now, ht⟩ := hroot hc
    rw [ht] at htimely
    obtain ⟨⟨duration, hd, hle⟩, hdelay, hnow, hnow'⟩ := htimely
    refine ⟨duration, since, hd, hle, ?_⟩
    split
    · rename_i ho
      have := hdelay ho
      omega
    · omega

theorem stops_in_time_tenSeconds : ∃ s, (tool tenSeconds).Reachable s ∧ s.cancelled = true ∧
    ∃ duration since, tenSeconds.duration = some duration ∧ duration ≤ since ∧
      since + YELLOWSTONE_STREAM_SHUTDOWN_DELAY ≤ s.updater.now := by
  obtain ⟨s, hs, hview⟩ := tenSeconds_reachable cancelledLabels
    (fun s => (s.cancelled, s.signalled, s.joined, s.csvFile)) (true, false, [], .created) rfl
  simp only [Prod.mk.injEq] at hview
  obtain ⟨hc, hsig, hjoined, hfile⟩ := hview
  obtain ⟨-, hroot⟩ := stops_in_time hs hsig (by simp [hjoined]) (by simp [hfile])
  obtain ⟨duration, since, hd, hle, hdelay⟩ := hroot hc
  exact ⟨s, hs, hc, duration, since, hd, hle, hdelay⟩

end TpuTools.Client
