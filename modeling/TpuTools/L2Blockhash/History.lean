import Mathlib.Data.List.Chain
import TpuTools.L2Blockhash.BlockhashUpdater

/-!
# What the blockhash updater publishes (`tools-common/src/blockhash_updater.rs`)

The state of the updater keeps one hash and one time. `History` keeps what an observer sees:
the hashes the RPC client returned, the ones the channel took, the time of the last of these
(or of the start), and how much time each check of `stuck_interval` found to be gone.

* `Agree`: between two publications the state is what the history says.
* `kept_step`: every step keeps this, whatever the answers, the clock and the receivers do.
* **`history_exact`**: at the head of the loop the channel holds the last hash that was
  fetched; no hash is published twice in a row; the error comes with the first check that finds
  too much time gone, and success only when no receiver is left.
-/
namespace TpuTools.Blockhash

/-- What an observer of the updater has seen. -/
structure History where
  /-- what the channel held before `run` -/
  initial : Hash
  /-- the hashes the RPC client returned -/
  fetched : List Hash
  /-- the hashes receivers were notified of -/
  notified : List Hash
  /-- when the last of them was sent, or `run` started -/
  changedAt : Nat
  /-- the time since then, at every check -/
  elapsed : List Nat

/-- What a step of the updater adds. -/
def History.record (h : History) (s : BlockhashUpdater) : Label → History
  | .start => { h with changedAt := s.now }
  | .answer (some hash) => { h with fetched := h.fetched ++ [hash] }
  | .send =>
    match s.phase with
    | .sending hash =>
      if s.channel.receivers then
        { h with notified := h.notified ++ [hash], changedAt := s.now }
      else h
    | _ => h
  | .check => { h with elapsed := h.elapsed ++ [s.now - h.changedAt] }
  | _ => h

/-- The updater with its observer. -/
structure Observed where
  updater : BlockhashUpdater
  history : History

variable (config : BlockhashUpdaterConfig)

def observedStep (o : Observed) (l : Label) : Option Observed :=
  (step config o.updater l).map fun s => ⟨s, o.history.record o.updater l⟩

def Observed.new (blockhash : Hash) : Observed := ⟨.new blockhash, ⟨blockhash, [], [], 0, []⟩⟩

def observed : LTS Observed Label :=
  .ofFn (fun o => ∃ blockhash, o = .new blockhash) (observedStep config)

/-- No answer is the default hash. -/
def Genuine (_ : Observed) : Label → Prop
  | .answer (some hash) => hash ≠ defaultHash
  | _ => True

instance (o : Observed) : (l : Label) → Decidable (Genuine o l)
  | .answer (some hash) => inferInstanceAs (Decidable (hash ≠ defaultHash))
  | .answer none | .start | .isClosed | .compare | .send | .check | .warn | .advance _
  | .dropReceivers => .isTrue trivial

variable {config}

/-- Watching changes nothing. -/
theorem observed_projection :
    LTS.Projection (observed config) (lts config) Observed.updater where
  init o ho := by
    obtain ⟨blockhash, rfl⟩ := ho
    exact ⟨blockhash, rfl⟩
  step o l o' ho := by
    obtain ⟨s, hs, rfl⟩ := Option.map_eq_some_iff.1 ho
    exact ⟨[l], .single hs⟩

/-- Every run can be watched. -/
theorem observable :
    LTS.Simulation (lts config) (observed config) fun s o => o.updater = s where
  init s hs := by
    obtain ⟨blockhash, rfl⟩ := hs
    exact ⟨.new blockhash, ⟨blockhash, rfl⟩, rfl⟩
  step s o l s' ho hs := by
    subst ho
    refine ⟨[l], ⟨s', o.history.record o.updater l⟩, .single ?_, rfl⟩
    show observedStep config o l = _
    unfold observedStep
    rw [show step config o.updater l = some s' from hs]
    rfl

/-! ## The invariant -/

/-- With the answers `fetched` behind it and nothing left to send. -/
structure Agree (s : BlockhashUpdater) (h : History) (fetched : List Hash) : Prop where
  last : s.lastBlockhash = fetched.getLast?.getD defaultHash
  value : s.channel.value = fetched.getLast?.getD h.initial
  notified : h.notified.getLast? = fetched.getLast?

/-- Where the updater is with its last answer. -/
def Placed (s : BlockhashUpdater) (h : History) : Prop :=
  match s.phase with
  | .fetched res => ∃ earlier, h.fetched = earlier ++ res.toList ∧ Agree s h earlier
  | .sending hash => s.lastBlockhash = hash ∧ h.fetched.getLast? = some hash ∧
      h.notified.getLast? ≠ some hash
  | .returned _ => True
  | _ => Agree s h h.fetched

/-- Only these three fields are read. -/
theorem Placed.congr {s s' : BlockhashUpdater} {h : History} (hphase : s'.phase = s.phase)
    (hlast : s'.lastBlockhash = s.lastBlockhash) (hvalue : s'.channel.value = s.channel.value)
    (hP : Placed s h) : Placed s' h := by
  have hagree : ∀ fetched, Agree s h fetched → Agree s' h fetched := by
    intro fetched ⟨h1, h2, h3⟩
    exact ⟨hlast ▸ h1, hvalue ▸ h2, h3⟩
  unfold Placed at hP ⊢
  rw [hphase]
  cases hp : s.phase with
  | fetched res =>
    rw [hp] at hP
    obtain ⟨earlier, hfetched, hA⟩ := hP
    exact ⟨earlier, hfetched, hagree _ hA⟩
  | sending hash =>
    rw [hp] at hP
    exact ⟨hlast ▸ hP.1, hP.2⟩
  | returned result => trivial
  | _ =>
    rw [hp] at hP
    exact hagree _ hP

structure Kept (config : BlockhashUpdaterConfig) (s : BlockhashUpdater) (h : History) : Prop where
  place : Placed s h
  genuine : ∀ hash ∈ h.fetched, hash ≠ defaultHash
  chain : h.notified.IsChain (· ≠ ·)
  changed : s.blockhashLastUpdated = h.changedAt
  patient : s.stuck = false → ∀ e ∈ h.elapsed, e ≤ config.stuckInterval
  first : s.stuck = true → ∃ before e, h.elapsed = before ++ [e] ∧
    config.stuckInterval < e ∧ ∀ x ∈ before, x ≤ config.stuckInterval
  closed : s.phase = .returned (.ok ()) → s.channel.receivers = false

theorem kept_new (config : BlockhashUpdaterConfig) (blockhash : Hash) :
    Kept config (.new blockhash) ⟨blockhash, [], [], 0, []⟩ where
  place := ⟨rfl, rfl, rfl⟩
  genuine := by simp
  chain := .nil
  changed := rfl
  patient := by simp
  first := by simp [BlockhashUpdater.new, BlockhashUpdater.stuck]
  closed := by simp [BlockhashUpdater.new]

variable {s s' : BlockhashUpdater} {h : History} {l : Label}

/-- A running updater has found no check to fail. -/
theorem Kept.of_running (hK : Kept config s h) (hrun : ∀ res, s.phase ≠ .returned res) :
    ∀ e ∈ h.elapsed, e ≤ config.stuckInterval := by
  apply hK.patient
  unfold BlockhashUpdater.stuck
  rw [decide_eq_false (hrun _)]

/-- A step inside the loop that neither sends nor checks. -/
theorem Kept.move (hK : Kept config s h) {h' : History} (hrun : ∀ res, s.phase ≠ .returned res)
    (hrun' : ∀ res, s'.phase ≠ .returned res) (hplace : Placed s' h')
    (hgenuine : ∀ hash ∈ h'.fetched, hash ≠ defaultHash) (hnotified : h'.notified = h.notified)
    (hchanged : s'.blockhashLastUpdated = h'.changedAt) (helapsed : h'.elapsed = h.elapsed) :
    Kept config s' h' where
  place := hplace
  genuine := hgenuine
  chain := hnotified ▸ hK.chain
  changed := hchanged
  patient _ := helapsed ▸ hK.of_running hrun
  first hs := absurd (of_decide_eq_true hs) (hrun' _)
  closed hs := absurd hs (hrun' _)

/-- After an answer the updater has it or has dropped it. -/
theorem placed_same {hash : Hash} {earlier : List Hash} (hfetched : h.fetched = earlier ++ [hash])
    (hne : hash ≠ defaultHash) (hA : Agree s h earlier) (hsame : s.lastBlockhash = hash) :
    Agree s h h.fetched := by
  have hlast : earlier.getLast? = some hash := by
    have hval := hA.last
    rw [hsame] at hval
    cases he : earlier.getLast? with
    | none => rw [he] at hval; exact absurd hval hne
    | some x => rw [he] at hval; rw [hval]; rfl
  have heq : h.fetched.getLast? = earlier.getLast? := by
    rw [hfetched, List.getLast?_append, hlast]
    rfl
  exact ⟨heq ▸ hA.last, heq ▸ hA.value, heq ▸ hA.notified⟩

/-- `run` returns `Ok` when the receivers are gone. -/
theorem Kept.return_ok (hK : Kept config s h) (hrun : ∀ res, s.phase ≠ .returned res)
    (hr : s.channel.receivers = false) : Kept config (s.return (.ok ())) h where
  place := trivial
  genuine := hK.genuine
  chain := hK.chain
  changed := hK.changed
  patient _ := hK.of_running hrun
  first := by simp [BlockhashUpdater.stuck, BlockhashUpdater.return]
  closed _ := hr

theorem kept_answer {res : Option Hash} (hs : step config s (.answer res) = some s')
    (hg : ∀ hash ∈ res, hash ≠ defaultHash) (hK : Kept config s h) :
    Kept config s' (h.record s (.answer res)) := by
  have hplace := hK.place
  unfold Placed at hplace
  cases step_move hs with
  | answer hp =>
    rw [hp] at hplace
    cases res with
    | none =>
      refine hK.move (by simp [hp]) (by simp) ?_ hK.genuine rfl hK.changed rfl
      exact ⟨h.fetched, (List.append_nil _).symm, hplace.last, hplace.value, hplace.notified⟩
    | some hash =>
      refine hK.move (by simp [hp]) (by simp) ?_ ?_ rfl hK.changed rfl
      · exact ⟨h.fetched, rfl, hplace.last, hplace.value, hplace.notified⟩
      · intro x hx
        rcases List.mem_append.1 hx with hx | hx
        · exact hK.genuine x hx
        · rw [List.mem_singleton.1 hx]
          exact hg hash rfl

theorem kept_compare (hs : step config s .compare = some s') (hK : Kept config s h) :
    Kept config s' (h.record s .compare) := by
  have hplace := hK.place
  unfold Placed at hplace
  cases step_move hs with
  | @changed hash hp hne =>
    rw [hp] at hplace
    obtain ⟨earlier, hfetched, hA⟩ := hplace
    refine hK.move (by simp [hp]) (by simp) ⟨rfl, ?_, ?_⟩ hK.genuine rfl hK.changed rfl
    · show h.fetched.getLast? = some hash
      rw [hfetched]
      exact List.getLast?_concat
    · -- what was sent last is what was fetched before, and that is `lastBlockhash`
      show h.notified.getLast? ≠ some hash
      intro hlast
      rw [hA.notified] at hlast
      apply hne
      rw [hA.last, hlast]
      rfl
  | same hp =>
    rw [hp] at hplace
    obtain ⟨earlier, hfetched, hA⟩ := hplace
    have hmem : s.lastBlockhash ∈ h.fetched := by
      rw [hfetched]
      exact List.mem_append_right _ (List.mem_singleton.2 rfl)
    have hagree := placed_same hfetched (hK.genuine _ hmem) hA rfl
    exact hK.move (by simp [hp]) (by simp) ⟨hagree.last, hagree.value, hagree.notified⟩
      hK.genuine rfl hK.changed rfl
  | failed hp =>
    rw [hp] at hplace
    obtain ⟨earlier, hfetched, hA⟩ := hplace
    rw [show earlier = h.fetched by simpa using hfetched.symm] at hA
    exact hK.move (by simp [hp]) (by simp) ⟨hA.last, hA.value, hA.notified⟩
      hK.genuine rfl hK.changed rfl

theorem kept_send (hs : step config s .send = some s') (hK : Kept config s h) :
    Kept config s' (h.record s .send) := by
  have hplace := hK.place
  unfold Placed at hplace
  cases step_move hs with
  | @sent hash hp hr =>
    rw [hp] at hplace
    obtain ⟨hlast, hfetched, hnew⟩ := hplace
    have hrecord : h.record s .send =
        { h with notified := h.notified ++ [hash], changedAt := s.now } := by
      simp only [History.record, hp, hr, if_true]
    rw [hrecord]
    refine ⟨⟨?_, ?_, ?_⟩, hK.genuine, ?_, rfl, fun _ => hK.of_running (by simp [hp]),
      by simp [BlockhashUpdater.stuck], by simp⟩
    · show s.lastBlockhash = h.fetched.getLast?.getD defaultHash
      rw [hlast, hfetched]
      rfl
    · show hash = h.fetched.getLast?.getD h.initial
      rw [hfetched]
      rfl
    · show (h.notified ++ [hash]).getLast? = h.fetched.getLast?
      rw [hfetched]
      exact List.getLast?_concat
    · refine hK.chain.append (.singleton _) ?_
      intro x hx y hy hxy
      cases hy
      exact hnew (hxy ▸ hx)
  | @broken hash hp hr =>
    have hrecord : h.record s .send = h := by
      simp [History.record, hp, hr]
    rw [hrecord]
    exact hK.return_ok (by simp [hp]) hr

theorem kept_check (hs : step config s .check = some s') (hK : Kept config s h) :
    Kept config s' (h.record s .check) := by
  have hplace := hK.place
  unfold Placed at hplace
  cases step_move hs with
  | stuck hp ho =>
    have hpatient := hK.of_running (by simp [hp])
    refine ⟨trivial, hK.genuine, hK.chain, hK.changed,
      by simp [BlockhashUpdater.stuck, BlockhashUpdater.return], fun _ => ?_,
      by simp [BlockhashUpdater.return]⟩
    refine ⟨h.elapsed, s.now - h.changedAt, rfl, ?_, hpatient⟩
    rw [← hK.changed]
    exact ho
  | fresh hp ho =>
    rw [hp] at hplace
    have hpatient := hK.of_running (by simp [hp])
    refine ⟨⟨hplace.last, hplace.value, hplace.notified⟩, hK.genuine, hK.chain, hK.changed,
      fun _ => ?_, by simp [BlockhashUpdater.stuck], by simp⟩
    intro e he
    rcases List.mem_append.1 he with he | he
    · exact hpatient e he
    · rw [List.mem_singleton.1 he, ← hK.changed]
      exact Nat.not_lt.1 ho

theorem kept_step (hs : step config s l = some s')
    (hg : ∀ hash, l = .answer (some hash) → hash ≠ defaultHash) (hK : Kept config s h) :
    Kept config s' (h.record s l) := by
  have hplace := hK.place
  unfold Placed at hplace
  cases step_move hs with
  | @answer res hp => exact kept_answer hs (fun hash hres => hg hash (congrArg _ hres)) hK
  | changed | same | failed => exact kept_compare hs hK
  | sent | broken => exact kept_send hs hK
  | stuck | fresh => exact kept_check hs hK
  | start hp =>
    rw [hp] at hplace
    exact hK.move (by simp [hp]) (by simp) ⟨hplace.last, hplace.value, hplace.notified⟩
      hK.genuine rfl rfl rfl
  | closed hp hr => exact hK.return_ok (by simp [hp]) hr
  | fetch hp hr =>
    rw [hp] at hplace
    exact hK.move (by simp [hp]) (by simp) ⟨hplace.last, hplace.value, hplace.notified⟩
      hK.genuine rfl hK.changed rfl
  | warned hp =>
    rw [hp] at hplace
    exact hK.move (by simp [hp]) (by simp) ⟨hplace.last, hplace.value, hplace.notified⟩
      hK.genuine rfl hK.changed rfl
  | advance =>
    show Kept config _ h
    exact ⟨Placed.congr (s := s) rfl rfl rfl hK.place, hK.genuine, hK.chain, hK.changed,
      hK.patient, hK.first, hK.closed⟩
  | dropReceivers =>
    show Kept config _ h
    exact ⟨Placed.congr (s := s) rfl rfl rfl hK.place, hK.genuine, hK.chain, hK.changed,
      hK.patient, hK.first, fun _ => rfl⟩

theorem kept_reachable {o : Observed} (ho : ((observed config).guard Genuine).Reachable o) :
    Kept config o.updater o.history := by
  refine LTS.Inductive.reachable (P := fun o => Kept config o.updater o.history) ⟨?_, ?_⟩ o ho
  · intro o ⟨blockhash, hnew⟩
    rw [hnew]
    exact kept_new config blockhash
  · intro o l o' hK ⟨hg, ho⟩
    obtain ⟨s, hs, rfl⟩ := Option.map_eq_some_iff.1 ho
    refine kept_step hs ?_ hK
    intro hash hl
    rw [hl] at hg
    exact hg

/-- **What the updater publishes, and when it ends.** For all answers, clock readings and
receivers: at the head of the loop the channel holds the hash fetched last, or the initial one;
no two notifications in a row are of the same hash, and at the head of the loop the last one is
of the hash fetched last; `run` has returned `BlockhashStuck` as soon as one check found more
than `stuck_interval` gone since the last change, and no check before did; and it returns `Ok`
only when no receiver is left. -/
theorem history_exact {o : Observed} (ho : ((observed config).guard Genuine).Reachable o) :
    (o.updater.phase = .looping →
      o.updater.channel.value = o.history.fetched.getLast?.getD o.history.initial ∧
      o.history.notified.getLast? = o.history.fetched.getLast?) ∧
    o.history.notified.IsChain (· ≠ ·) ∧
    (o.updater.stuck = true ↔ ∃ e ∈ o.history.elapsed, config.stuckInterval < e) ∧
    (∀ e ∈ o.history.elapsed.dropLast, e ≤ config.stuckInterval) ∧
    (o.updater.phase = .returned (.ok ()) → o.updater.channel.receivers = false) := by
  obtain ⟨hplace, -, hchain, -, hpatient, hfirst, hclosed⟩ := kept_reachable ho
  refine ⟨?_, hchain, ⟨?_, ?_⟩, ?_, hclosed⟩
  · intro hp
    unfold Placed at hplace
    rw [hp] at hplace
    exact ⟨hplace.value, hplace.notified⟩
  · intro hs
    obtain ⟨before, e, helapsed, hlt, -⟩ := hfirst hs
    exact ⟨e, helapsed ▸ List.mem_append_right _ (List.mem_singleton.2 rfl), hlt⟩
  · intro ⟨e, he, hlt⟩
    by_contra hs
    have hle := hpatient (Bool.eq_false_iff.2 hs) e he
    omega
  · intro e he
    cases hs : o.updater.stuck with
    | false => exact hpatient hs e (List.dropLast_subset _ he)
    | true =>
      obtain ⟨before, last, helapsed, -, hbefore⟩ := hfirst hs
      rw [helapsed, List.dropLast_concat] at he
      exact hbefore e he

/-! ## A run -/

/-- A new hash, the same hash again, a failed request, and too much time gone. -/
def stuckRun (hash : Hash) : List Label :=
  [.start, .isClosed, .answer (some hash), .compare, .send, .check, .warn,
    .advance (120 * 10 ^ 9), .isClosed, .answer (some hash), .compare, .check, .warn,
    .advance 1, .isClosed, .answer none, .compare, .check]

/-- The checks find 0, 120 s and a nanosecond more; the last one ends the run, in which the
receivers were notified once. -/
theorem history_exact_stuckRun : ∃ o : Observed,
    ((observed BlockhashUpdaterConfig.default).guard Genuine).Reachable o ∧
    o.updater.stuck = true ∧ o.history.elapsed = [0, 120 * 10 ^ 9, 120 * 10 ^ 9 + 1] ∧
    o.history.fetched.length = 2 ∧ o.history.notified.length = 1 ∧
    o.history.notified.IsChain (· ≠ ·) ∧
    ∀ e ∈ o.history.elapsed.dropLast, e ≤ 120 * 10 ^ 9 := by
  obtain ⟨o, hr, hview⟩ := @LTS.guard_reachable_of_view _ _ _
    (fun o => ∃ blockhash, o = Observed.new blockhash)
    (observedStep BlockhashUpdaterConfig.default) Genuine _ (.new defaultHash) ⟨_, rfl⟩
    (stuckRun ⟨List.replicate 32 7, by decide⟩)
    (fun o => (o.updater.stuck, o.history.elapsed, o.history.fetched.length,
      o.history.notified.length)) (true, [0, 120 * 10 ^ 9, 120 * 10 ^ 9 + 1], 2, 1)
    (by decide +kernel)
  simp only [Prod.mk.injEq] at hview
  obtain ⟨hstuck, helapsed, hfetched, hnotified⟩ := hview
  obtain ⟨-, hchain, -, hbefore, -⟩ := history_exact hr
  exact ⟨o, hr, hstuck, helapsed, hfetched, hnotified, hchain, hbefore⟩

end TpuTools.Blockhash
