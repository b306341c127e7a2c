import TpuTools.L2Blockhash.BlockhashUpdater
import TpuTools.L2Generator.TransactionGenerator

/-!
# `run_client` of the bench tool (`transaction-bench/src/main.rs`)

`run_client` spawns the blockhash updater, the transaction generator and the scheduler, and
joins them in the order generator, updater, scheduler. Nothing else connects an error of the
updater with the generator: the generator reads the watch channel with `borrow`, which still
returns the last value when the sender is gone, and the join of the updater only logs.

The model begins when the first two are spawned: an identity file that cannot be read and a
failing first request for a blockhash end `run_client` before. The checks at the generator's loop
head are steps of their own here, so time can pass and channels can close between them.

* `generator_projection`, `updater_projection`: both tasks run as they do alone.
* **`stops_when_stuck`**: no batch is spawned after the updater gave up, in runs in which the
  generator is stopped otherwise.
* `late_batch`: and only in those; one iteration after the updater gave up spawns a batch.
* `spawns_when_stuck`: a run without a duration that does.
-/
namespace TpuTools.Bench
open Blockhash Generator

/-- The check that comes next at the loop head of the generator. -/
inductive Head where
  | duration
  | receiver
  | borrow
  deriving DecidableEq, Repr

inductive MainPhase where
  | creatingLeaderUpdater
  | joiningGenerator
  | joiningUpdater
  | joiningScheduler
  | returned (ok : Bool)
  deriving DecidableEq, Repr

structure BenchClient where
  main : MainPhase
  generator : TransactionGenerator
  head : Head
  /-- when the generator's loop began -/
  start : Nat
  /-- the updater, the watch channel and the clock -/
  updater : BlockhashUpdater
  /-- the receiver of the batches, which the scheduler owns -/
  receiver : Bool
  /-- ghost: the generator's loop iteration began after the updater gave up -/
  begunAfter : Bool
  /-- ghost: the batches spawned after the updater gave up -/
  spawnedAfter : Nat
  /-- ghost: those of them that were spawned in iterations begun after it -/
  spawnedLater : Nat

def BenchClient.init (blockhash : Hash) : BenchClient where
  main := .creatingLeaderUpdater
  generator := .init
  head := .duration
  start := 0
  updater := .new blockhash
  receiver := true
  begunAfter := false
  spawnedAfter := 0
  spawnedLater := 0

inductive Label where
  /-- the result of `create_leader_updater` -/
  | leaderUpdater (ok : Bool)
  | updater (l : Blockhash.Label)
  | generator (l : Generator.Label)
  /-- the duration is not over -/
  | passDuration
  /-- the receiver of the batches is there -/
  | passReceiver
  | schedulerEnds
  /-- the task that `run_client` waits for has ended -/
  | join

/-- `run` has returned or panicked, and its receiver of the watch channel is dropped. -/
def ended (g : TransactionGenerator) : Bool :=
  match g.phase with
  | .returned _ | .panicked => true
  | _ => false

def looping (g : TransactionGenerator) : Bool :=
  match g.phase with
  | .looping => true
  | _ => false

def spawning (g : TransactionGenerator) : Bool :=
  match g.phase with
  | .spawning _ => true
  | _ => false

def updaterEnded (u : BlockhashUpdater) : Bool :=
  match u.phase with
  | .returned _ => true
  | _ => false

variable (sdk : Sdk) (P : Params) (config : BlockhashUpdaterConfig)

/-- mirrors transaction-bench/src/generator/transaction_generator.rs:95-97 -/
def BenchClient.timeLeft (s : BenchClient) : Bool :=
  match P.runDuration with
  | some runDuration => decide (s.updater.now - s.start < runDuration)
  | none => true

/-- What the generator reads at a step is what is there. -/
def BenchClient.allows (s : BenchClient) : Generator.Label → Bool
  | .durationElapsed => decide (s.head = .duration) && !s.timeLeft P
  | .receiverDropped => decide (s.head = .receiver) && !s.receiver
  | .borrowBlockhash blockhash =>
    decide (s.head = .borrow) && decide (blockhash = s.updater.channel.value)
  | .send _ delivered => delivered == s.receiver
  | _ => true

/-- The client after the generator's step `l` to `g`. -/
def BenchClient.moved (s : BenchClient) (l : Generator.Label) (g : TransactionGenerator) :
    BenchClient :=
  let spawned : Nat := match l with
    | .spawn => 1
    | _ => 0
  { s with
    generator := g
    head := match l with
      | .borrowBlockhash _ => .duration
      | _ => s.head
    start := match l with
      | .validate => s.updater.now
      | _ => s.start
    updater := { s.updater with
      channel := { s.updater.channel with
        receivers := s.updater.channel.receivers && !ended g } }
    spawnedAfter := s.spawnedAfter + if s.updater.stuck then spawned else 0
    spawnedLater := s.spawnedLater + if s.begunAfter then spawned else 0 }

/-- The joins of the updater and the scheduler log an error and go on.
mirrors transaction-bench/src/main.rs:197-206, 244-320 -/
def benchStep (s : BenchClient) : Label → Option BenchClient
  | .leaderUpdater ok =>
    match s.main with
    | .creatingLeaderUpdater =>
      if ok then some { s with main := .joiningGenerator }
      -- `?` returns, which drops the receiver of the batches
      else some { s with main := .returned false, receiver := false }
    | _ => none
  | .updater .dropReceivers => none
  | .updater l => (Blockhash.step config s.updater l).map fun u => { s with updater := u }
  | .generator l =>
    if s.allows P l then (Generator.step sdk P s.generator l).map fun g => s.moved l g else none
  | .passDuration =>
    if looping s.generator ∧ s.head = .duration ∧ s.timeLeft P then
      some { s with head := .receiver, begunAfter := s.updater.stuck }
    else none
  | .passReceiver =>
    if looping s.generator ∧ s.head = .receiver ∧ s.receiver then some { s with head := .borrow }
    else none
  | .schedulerEnds =>
    match s.main with
    | .creatingLeaderUpdater => none
    | _ => some { s with receiver := false }
  | .join =>
    match s.main with
    | .joiningGenerator =>
      if ended s.generator then some { s with main := .joiningUpdater } else none
    | .joiningUpdater =>
      if updaterEnded s.updater then some { s with main := .joiningScheduler } else none
    | .joiningScheduler => if s.receiver then none else some { s with main := .returned true }
    | _ => none

def BenchClient.Started (s : BenchClient) : Prop := ∃ blockhash, s = .init blockhash

def bench : LTS BenchClient Label := .ofFn BenchClient.Started (benchStep sdk P config)

/-! ## The condition -/

/-- The pool has room for a batch. -/
def BenchClient.Room (s : BenchClient) : Prop := s.generator.futures.length < P.workersPullSize

/-- The generator is in an iteration that spawns a batch. -/
def BenchClient.Filling (s : BenchClient) : Prop :=
  (looping s.generator = true ∧ s.head = .borrow ∨ spawning s.generator = true) ∧ s.Room P

instance (s : BenchClient) : Decidable (s.Room P) := inferInstanceAs (Decidable (_ < _))

instance (s : BenchClient) : Decidable (s.Filling P) := inferInstanceAs (Decidable (_ ∧ _))

/-- No iteration begun after the updater gave up finds time, a receiver and room. -/
def NotLater (s : BenchClient) : Label → Prop
  | .passReceiver => s.begunAfter = true → ¬ s.Room P
  | _ => True

/-- Nor does the iteration in which the updater gives up, and it gives up outside of the inner
loop. -/
def NotAfter (s : BenchClient) : Label → Prop
  | .passReceiver => s.updater.stuck = true → ¬ s.Room P
  | .updater .check => s.updater.Overdue config → ¬ s.Filling P
  | _ => True

instance (s : BenchClient) (l : Label) : Decidable (NotLater P s l) := by
  unfold NotLater
  split <;> infer_instance

instance (s : BenchClient) (l : Label) : Decidable (NotAfter P config s l) := by
  unfold NotAfter
  split <;> infer_instance

variable {sdk P config} {s s' : BenchClient} {l : Label}

/-! ## The moves -/

/-- Every way a step can go, as far as the generator and the updater see it. -/
inductive Move (sdk : Sdk) (P : Params) (config : BlockhashUpdaterConfig) (s : BenchClient) :
    Label → BenchClient → Prop where
  | leaderUpdater {ok receiver : Bool} {main : MainPhase} :
      Move sdk P config s (.leaderUpdater ok) { s with main := main, receiver := receiver }
  | updater {l : Blockhash.Label} {u : BlockhashUpdater}
      (hu : Blockhash.step config s.updater l = some u) :
      Move sdk P config s (.updater l) { s with updater := u }
  | generator {l : Generator.Label} {g : TransactionGenerator} (hok : s.allows P l = true)
      (hg : Generator.step sdk P s.generator l = some g) :
      Move sdk P config s (.generator l) (s.moved l g)
  | passDuration (hl : looping s.generator = true) :
      Move sdk P config s .passDuration
        { s with head := .receiver, begunAfter := s.updater.stuck }
  | passReceiver (hl : looping s.generator = true) :
      Move sdk P config s .passReceiver { s with head := .borrow }
  | schedulerEnds : Move sdk P config s .schedulerEnds { s with receiver := false }
  | join {main : MainPhase} : Move sdk P config s .join { s with main := main }

theorem step_move (h : benchStep sdk P config s l = some s') : Move sdk P config s l s' := by
  cases l with
  | leaderUpdater ok =>
    simp only [benchStep] at h
    split at h
    · split at h
      · cases h
        exact .leaderUpdater
      · cases h
        exact .leaderUpdater
    · cases h
  | updater l =>
    have hmap : (Blockhash.step config s.updater l).map (fun u => { s with updater := u }) =
        some s' := by
      cases l with
      | dropReceivers => cases h
      | _ => exact h
    obtain ⟨u, hu, rfl⟩ := Option.map_eq_some_iff.1 hmap
    exact .updater hu
  | generator l =>
    simp only [benchStep] at h
    split at h
    · obtain ⟨g, hg, rfl⟩ := Option.map_eq_some_iff.1 h
      exact .generator ‹_› hg
    · cases h
  | passDuration =>
    simp only [benchStep] at h
    split at h
    · rename_i hc
      cases h
      exact .passDuration hc.1
    · cases h
  | passReceiver =>
    simp only [benchStep] at h
    split at h
    · rename_i hc
      cases h
      exact .passReceiver hc.1
    · cases h
  | schedulerEnds =>
    simp only [benchStep] at h
    split at h
    · cases h
    · cases h
      exact .schedulerEnds
  | join =>
    simp only [benchStep] at h
    split at h
    · split at h
      · cases h
        exact .join
      · cases h
    · split at h
      · cases h
        exact .join
      · cases h
    · split at h
      · cases h
      · cases h
        exact .join
    · cases h

/-- The generator in the client is the one of `L2Generator`. -/
theorem generator_projection :
    LTS.Projection (bench sdk P config) (Generator.lts sdk P) (·.generator) where
  init := by
    intro s hs
    obtain ⟨blockhash, rfl⟩ : s.Started := hs
    rfl
  step := by
    intro s l s' hs
    cases step_move hs with
    | @generator l g hok hg => exact ⟨[l], .single hg⟩
    | _ => exact ⟨[], .nil _⟩

/-- The updater is the one of `L2Blockhash`; its receiver goes with the generator. -/
theorem updater_projection :
    LTS.Projection (bench sdk P config) (Blockhash.lts config) (·.updater) where
  init := by
    intro s hs
    obtain ⟨blockhash, rfl⟩ : s.Started := hs
    exact ⟨blockhash, rfl⟩
  step := by
    intro s l s' hs
    cases step_move hs with
    | @updater l u hu => exact ⟨[l], .single hu⟩
    | @generator l g hok hg =>
      by_cases he : ended g = true
      · refine ⟨[.dropReceivers], .single ?_⟩
        simp [Blockhash.lts, LTS.ofFn, Blockhash.step, BenchClient.moved, he]
      · refine ⟨[], ?_⟩
        have hu : (s.moved l g).updater = s.updater := by
          simp [BenchClient.moved, he]
        rw [hu]
        exact .nil _
    | _ => exact ⟨[], .nil _⟩

/-! ## Who spawns -/

theorem looping_iff {g : TransactionGenerator} : looping g = true ↔ g.phase = .looping := by
  unfold looping
  split <;> simp_all

theorem spawning_iff {g : TransactionGenerator} :
    spawning g = true ↔ ∃ blockhash, g.phase = .spawning blockhash := by
  unfold spawning
  split <;> simp_all

/-- The blockhash is borrowed at the loop head. -/
def BenchClient.AtHead (s : BenchClient) : Prop := s.head = .borrow → looping s.generator = true

theorem atHead_step (h : benchStep sdk P config s l = some s') (ha : s.AtHead) : s'.AtHead := by
  intro hb
  cases step_move h with
  | leaderUpdater | updater | schedulerEnds | join => exact ha hb
  | passDuration hl => cases hb
  | passReceiver hl => exact hl
  | @generator l g hok hg =>
    have hhead : s.head = .borrow := by
      cases l <;> first | exact hb | cases hb
    have hl := looping_iff.1 (ha hhead)
    apply looping_iff.2
    cases Generator.step_move hg with
    | overflow hp | refuse hp | accept hp | spawn hp | spawnPanic hp | full hp | noTask hp
    | ended hp => cases hl.symm.trans hp
    | joined ht hd hp | drained ht hd hp => cases hl.symm.trans hp
    | stop | dropped => simp [BenchClient.allows, hhead] at hok
    | borrow => cases hb
    | generated | generatePanic | sent => exact hl

/-- Only the receiver check makes an iteration one that spawns. -/
theorem filling_step (h : benchStep sdk P config s l = some s') (ha : s.AtHead)
    (hf : s'.Filling P) :
    l ≠ .passDuration ∧ (s.Filling P ∨ l = .passReceiver ∧ s.Room P) := by
  obtain ⟨hphase, hroom⟩ := hf
  cases step_move h with
  | leaderUpdater | updater | schedulerEnds | join =>
    exact ⟨by simp, .inl ⟨hphase, hroom⟩⟩
  | passReceiver hl => exact ⟨by simp, .inr ⟨rfl, hroom⟩⟩
  | passDuration hl =>
    rcases hphase with ⟨-, hb⟩ | hb
    · cases hb
    · obtain ⟨b, hb⟩ := spawning_iff.1 hb
      cases (looping_iff.1 hl).symm.trans hb
  | @generator l g hok hg =>
    refine ⟨by simp, .inl ?_⟩
    cases Generator.step_move hg with
    | borrow hp =>
      simp only [BenchClient.allows, Bool.and_eq_true, decide_eq_true_eq] at hok
      exact ⟨.inl ⟨looping_iff.2 hp, hok.1⟩, hroom⟩
    | spawn hp hlt hnext => exact ⟨.inr (spawning_iff.2 ⟨_, hp⟩), hlt⟩
    | spawnPanic hp hlt hnext => exact ⟨.inr (spawning_iff.2 ⟨_, hp⟩), hlt⟩
    | generated | generatePanic | sent =>
      refine ⟨hphase, ?_⟩
      simpa [BenchClient.Room, BenchClient.moved] using hroom
    | accept hp | joined _ _ hp | noTask hp =>
      rcases hphase with ⟨-, hb⟩ | hb
      · have hl := looping_iff.1 (ha hb)
        cases hl.symm.trans hp
      · cases hb
    | overflow | refuse | stop | dropped | full | ended =>
      rcases hphase with ⟨hb, -⟩ | hb
      · cases hb
      · cases hb
    | drained ht hd hp =>
      rcases hphase with ⟨hb, -⟩ | hb
      · cases hp.symm.trans (looping_iff.1 hb)
      · obtain ⟨b, hb⟩ := spawning_iff.1 hb
        cases hp.symm.trans hb

/-- A batch is spawned in an iteration that spawns one. -/
theorem filling_of_spawn {g : TransactionGenerator}
    (hg : Generator.step sdk P s.generator .spawn = some g) : s.Filling P := by
  cases Generator.step_move hg with
  | spawn hp hroom hnext => exact ⟨.inr (spawning_iff.2 ⟨_, hp⟩), hroom⟩
  | spawnPanic hp hroom hnext => exact ⟨.inr (spawning_iff.2 ⟨_, hp⟩), hroom⟩

/-- A batch is counted in an iteration that spawns one. -/
theorem counts_step (h : benchStep sdk P config s l = some s') :
    (s'.spawnedAfter = s.spawnedAfter ∨ s.updater.stuck = true ∧ s.Filling P) ∧
    (s'.spawnedLater = s.spawnedLater ∨ s.begunAfter = true ∧ s.Filling P) := by
  cases step_move h with
  | leaderUpdater | updater | schedulerEnds | join | passDuration | passReceiver =>
    exact ⟨.inl rfl, .inl rfl⟩
  | @generator l g hok hg =>
    cases l with
    | spawn =>
      have hf := filling_of_spawn hg
      constructor
      · by_cases hs : s.updater.stuck = true
        · exact .inr ⟨hs, hf⟩
        · exact .inl (by simp [BenchClient.moved, hs])
      · by_cases hb : s.begunAfter = true
        · exact .inr ⟨hb, hf⟩
        · exact .inl (by simp [BenchClient.moved, hb])
    | _ => simp [BenchClient.moved]

/-! ## The benchmark stops -/

theorem begunAfter_step (h : benchStep sdk P config s l = some s') (hne : l ≠ .passDuration) :
    s'.begunAfter = s.begunAfter := by
  cases step_move h with
  | passDuration => exact absurd rfl hne
  | _ => rfl

theorem stuck_step (h : benchStep sdk P config s l = some s') (hs : s'.updater.stuck = true) :
    s.updater.stuck = true ∨ l = .updater .check ∧ s.updater.Overdue config := by
  cases step_move h with
  | updater hu =>
    rcases stuck_of_step hu hs with hs | ⟨rfl, -, ho⟩
    · exact .inl hs
    · exact .inr ⟨rfl, ho⟩
  | _ => exact .inl hs

/-- The invariant of both conditions: once `gone` holds, no batch is spawned, so what counts
batches spawned since then stays 0. -/
theorem quiet_reachable {ok : BenchClient → Label → Prop} {gone : BenchClient → Bool}
    {count : BenchClient → Nat}
    (hinit : ∀ blockhash, gone (.init blockhash) = false ∧ count (.init blockhash) = 0)
    (hcount : ∀ s l s', benchStep sdk P config s l = some s' →
      count s' = count s ∨ gone s = true ∧ s.Filling P)
    (hgone : ∀ s l s', benchStep sdk P config s l = some s' → ok s l →
      l ≠ .passDuration ∧ (s.Filling P ∨ l = .passReceiver ∧ s.Room P) → gone s' = true →
      gone s = true ∧ s.Filling P)
    (h : ((bench sdk P config).guard ok).Reachable s) : count s = 0 := by
  suffices hinv : s.AtHead ∧ count s = 0 ∧ ¬ (gone s = true ∧ s.Filling P) from hinv.2.1
  refine LTS.Inductive.reachable (P := fun s : BenchClient =>
    s.AtHead ∧ count s = 0 ∧ ¬ (gone s = true ∧ s.Filling P)) ⟨?_, ?_⟩ s h
  · intro s hs
    obtain ⟨blockhash, rfl⟩ : s.Started := hs
    obtain ⟨hg, h0⟩ := hinit blockhash
    refine ⟨?_, h0, ?_⟩
    · intro hb
      cases hb
    · intro hgf
      cases hg.symm.trans hgf.1
  · rintro s l s' ⟨ha, h0, hn⟩ ⟨hok, hs⟩
    refine ⟨atHead_step hs ha, ?_, ?_⟩
    · rcases hcount s l s' hs with heq | hgf
      · exact heq.trans h0
      · exact absurd hgf hn
    · intro ⟨hg, hf⟩
      exact hn (hgone s l s' hs hok (filling_step hs ha hf) hg)

/-- An iteration begun after the updater gave up spawns nothing. -/
theorem later_reachable (h : ((bench sdk P config).guard (NotLater P)).Reachable s) :
    s.spawnedLater = 0 := by
  refine quiet_reachable (fun _ => ⟨rfl, rfl⟩) (fun s l s' hs => (counts_step hs).2) ?_ h
  intro s l s' hs hok ⟨hne, hfill⟩ hbegun
  rw [begunAfter_step hs hne] at hbegun
  rcases hfill with hf | ⟨rfl, hroom⟩
  · exact ⟨hbegun, hf⟩
  · exact absurd hroom (hok hbegun)

/-- Nor does the iteration it gave up in. -/
theorem after_reachable (h : ((bench sdk P config).guard (NotAfter P config)).Reachable s) :
    s.spawnedAfter = 0 := by
  refine quiet_reachable (fun _ => ⟨rfl, rfl⟩) (fun s l s' hs => (counts_step hs).1) ?_ h
  rintro s l s' hs hok ⟨-, hfill⟩ hstuck
  rcases stuck_step hs hstuck with hstuck | ⟨rfl, ho⟩
  · rcases hfill with hf | ⟨rfl, hroom⟩
    · exact ⟨hstuck, hf⟩
    · exact absurd hroom (hok hstuck)
  · rcases hfill with hf | ⟨hl, -⟩
    · exact absurd hf (hok ho)
    · cases hl

/-- **No batch after the updater gave up.** In runs in which no iteration begun after it gets
past the checks with room in the pool, no such iteration spawns one; and when the current
iteration was done spawning as well, none is spawned at all. -/
theorem stops_when_stuck (s : BenchClient) :
    (((bench sdk P config).guard (NotLater P)).Reachable s → s.spawnedLater = 0) ∧
    (((bench sdk P config).guard (NotAfter P config)).Reachable s → s.spawnedAfter = 0) :=
  ⟨later_reachable, after_reachable⟩

/-- **And only then.** An iteration begun after the updater gave up that finds the receiver and
room goes on to spawn a batch. -/
theorem late_batch (hl : looping s.generator = true) (hh : s.head = .receiver)
    (hr : s.receiver = true) (hroom : s.Room P) (hbegun : s.begunAfter = true) :
    ∃ s', (bench sdk P config).Run s [.passReceiver,
        .generator (.borrowBlockhash s.updater.channel.value), .generator .spawn] s' ∧
      s'.spawnedLater = s.spawnedLater + 1 := by
  have hphase := looping_iff.1 hl
  have h1 : benchStep sdk P config s .passReceiver = some { s with head := .borrow } :=
    if_pos ⟨hl, hh, hr⟩
  have h2 : benchStep sdk P config { s with head := .borrow }
      (.generator (.borrowBlockhash s.updater.channel.value)) =
        some (BenchClient.moved { s with head := .borrow }
          (.borrowBlockhash s.updater.channel.value)
          { s.generator with phase := .spawning s.updater.channel.value }) := by
    simp [benchStep, BenchClient.allows, Generator.step, hphase]
  obtain ⟨g, hg⟩ : ∃ g, Generator.step sdk P
      { s.generator with phase := .spawning s.updater.channel.value } .spawn = some g := by
    simp only [Generator.step, if_pos (show s.generator.futures.length < _ from hroom)]
    split
    · exact ⟨_, rfl⟩
    · exact ⟨_, rfl⟩
  have h3 : ∀ t : BenchClient,
      t.generator = { s.generator with phase := .spawning s.updater.channel.value } →
      benchStep sdk P config t (.generator .spawn) = some (t.moved .spawn g) := by
    intro t ht
    simp only [benchStep, BenchClient.allows, if_true, ht, hg, Option.map_some]
  refine ⟨_, .cons h1 (.cons h2 (.single (h3 _ rfl))), ?_⟩
  simp [BenchClient.moved, hbegun]

/-! ## Runs past the end of the updater -/

/-- The updater publishes one blockhash and gets no other answer for two minutes, in which the
generator fills its pool. -/
def untilStuck : List Label :=
  [.leaderUpdater true, .generator .validate, .updater .start, .updater .isClosed,
    .updater (.answer (some Sender.plainHash)), .updater .compare, .updater .send,
    .updater .check, .updater .warn, .passDuration, .passReceiver,
    .generator (.borrowBlockhash Sender.plainHash), .generator .spawn, .generator .spawn,
    .generator .poolFull, .generator (.generate 1 [5, 6]), .generator (.send 1 true),
    .updater (.advance (121 * 10 ^ 9)), .updater .isClosed, .updater (.answer none),
    .updater .compare, .updater .check, .generator (.joinNext 1)]

/-- Without a duration the generator goes on to spawn. -/
theorem spawns_when_stuck : ∃ s,
    (bench Sender.plainSdk twoWorkers .default).Reachable s ∧
    s.updater.stuck = true ∧ s.spawnedAfter = 1 ∧ s.spawnedLater = 1 := by
  obtain ⟨s, hs, hv⟩ := @LTS.reachable_of_view _ _ _ BenchClient.Started
    (benchStep Sender.plainSdk twoWorkers .default) _ ⟨Sender.plainHash, rfl⟩
    (untilStuck ++ [.passDuration, .passReceiver,
      .generator (.borrowBlockhash Sender.plainHash), .generator .spawn])
    (fun s => (s.updater.stuck, s.spawnedAfter, s.spawnedLater)) (true, 1, 1) (by decide +kernel)
  simp only [Prod.mk.injEq] at hv
  exact ⟨s, hs, hv.1, hv.2.1, hv.2.2⟩

def timedWorkers : Params := { twoWorkers with runDuration := some (100 * 10 ^ 9) }

/-- A duration of 100 seconds stops it. -/
theorem stops_when_stuck_timed : ∃ s,
    (bench Sender.plainSdk timedWorkers .default).Reachable s ∧ s.updater.stuck = true ∧
    s.generator.spawned = 2 ∧ s.spawnedLater = 0 ∧ s.spawnedAfter = 0 := by
  obtain ⟨s, hs, hv⟩ := @LTS.guard_reachable_of_view _ _ _ BenchClient.Started
    (benchStep Sender.plainSdk timedWorkers .default)
    (fun s l => NotLater timedWorkers s l ∧ NotAfter timedWorkers .default s l) _ _
    ⟨Sender.plainHash, rfl⟩ (untilStuck ++ [.generator .durationElapsed])
    (fun s => (s.updater.stuck, s.generator.spawned)) (true, 2) (by decide +kernel)
  simp only [Prod.mk.injEq] at hv
  exact ⟨s, LTS.guard_reachable hs, hv.1, hv.2,
    (stops_when_stuck s).1 (LTS.guard_mono (fun _ _ h => h.1) hs),
    (stops_when_stuck s).2 (LTS.guard_mono (fun _ _ h => h.2) hs)⟩

end TpuTools.Bench
