import TpuTools.Core.Ranking
import TpuTools.L2Blockhash.Ending
import TpuTools.L2Generator.Pool
import TpuTools.L4Client.BenchClient

/-!
# How the bench tool ends (`transaction-bench/src/main.rs`)

Nobody cancels the token of `run_client`. The tool ends because each task notices that another is
gone: the generator stops when its duration is over or the scheduler has dropped the receiver of
the batches, which drops the receiver of the blockhashes and the sender of the batches, so the
updater and the scheduler end as well, and `run_client` joins them in this order.

A worker task that sends its batch never waits here: the scheduler is taken to keep taking
batches from the bounded channel until it ends.

* `BenchClient.Stopping`: there is a reason for the generator to end.
* `BenchClient.closing`: the steps that bring the end closer; the others are the rounds of the
  updater and the clock.
* `closing_progress`: each closing step lowers the work that is left, the others do not raise it,
  and until `run_client` has returned there is one.
* **`bench_ends`**: so `run_client` ends, whatever the tasks do in between.
-/
namespace TpuTools.Bench
open Generator Blockhash

variable {sdk : Sdk} {P : Params} {config : BlockhashUpdaterConfig} {s s' : BenchClient}
  {l : Label}

def validating (g : TransactionGenerator) : Bool :=
  match g.phase with
  | .validating => true
  | _ => false

/-- The generator has ended, or will: its duration is over, or the receiver is gone. -/
def BenchClient.Stopping (P : Params) (s : BenchClient) : Prop :=
  ended s.generator = true ∨ s.receiver = false ∨
    (validating s.generator = false ∧ s.timeLeft P = false)

def MainPhase.over : MainPhase → Bool
  | .returned _ => true
  | _ => false

/-- The scheduler ends by itself when the sender of the batches is gone. -/
def BenchClient.closing (s : BenchClient) : Label → Bool
  | .updater l => l.own && !s.updater.channel.receivers
  | .schedulerEnds => s.receiver && ended s.generator
  | _ => true

/-! ## The work that is left -/

def MainPhase.work : MainPhase → Nat
  | .creatingLeaderUpdater => 4
  | .joiningGenerator => 3
  | .joiningUpdater => 2
  | .joiningScheduler => 1
  | .returned _ => 0

/-- How many tasks an iteration of the generator can still spawn, with all they do. -/
def spawnWork (P : Params) (g : TransactionGenerator) : Nat :=
  4 * (P.workersPullSize - g.futures.length)

def generatorWork (P : Params) (g : TransactionGenerator) (head : Head) (receiver : Bool) : Nat :=
  match g.phase with
  | .validating | .joining => 4
  | .looping =>
    match head with
    | .duration => 3
    | .receiver => if receiver then 7 + spawnWork P g else 2
    | .borrow => 6 + spawnWork P g
  | .spawning _ => 5 + spawnWork P g
  | .stopping => 1
  | .returned _ | .panicked => 0

def BenchClient.updaterWork (s : BenchClient) : Nat :=
  if s.updater.channel.receivers then 7 else s.updater.phase.work

def BenchClient.work (P : Params) (s : BenchClient) : Nat :=
  s.main.work + generatorWork P s.generator s.head s.receiver + poolWork s.generator.futures +
    s.updaterWork + s.receiver.toNat

/-! ## What holds of every state -/

/-- Away from the loop head the duration is what the generator will check next; a generator that
has ended has dropped its receiver of the blockhashes, and main goes on when a task has ended. -/
structure Wired (s : BenchClient) : Prop where
  head : s.head ≠ .duration → looping s.generator = true ∨ ended s.generator = true
  receivers : ended s.generator = true → s.updater.channel.receivers = false
  joined : s.main ≠ .creatingLeaderUpdater → s.main ≠ .joiningGenerator →
    s.main = .returned false ∨ ended s.generator = true
  numbered : Numbered s.generator

theorem ended_iff {g : TransactionGenerator} :
    ended g = true ↔ g.phase = .panicked ∨ ∃ result, g.phase = .returned result := by
  unfold ended
  split <;> simp_all

theorem updaterEnded_iff {u : BlockhashUpdater} :
    updaterEnded u = true ↔ ∃ result, u.phase = .returned result := by
  unfold updaterEnded
  split <;> simp_all

/-- A generator that has ended takes no step that goes anywhere else. -/
theorem ended_step {g g' : TransactionGenerator} {gl : Generator.Label}
    (h : Generator.step sdk P g gl = some g') (he : ended g = true) : ended g' = true := by
  have hphase := ended_iff.1 he
  cases Generator.step_move h with
  | generated | generatePanic | sent => exact he
  | overflow hp | refuse hp | accept hp | stop hp | dropped hp | borrow hp | spawn hp
  | spawnPanic hp | full hp | joined _ _ hp | drained _ _ hp | noTask hp | ended hp =>
    rw [hp] at hphase
    simp at hphase

/-- Away from the loop head nothing but the durations is left to check. -/
theorem head_step {g : TransactionGenerator} {gl : Generator.Label} (hW : Wired s)
    (hok : s.allows P gl = true) (h : Generator.step sdk P s.generator gl = some g)
    (hhead : (s.moved gl g).head ≠ .duration) : looping g = true ∨ ended g = true := by
  have hbefore : s.head ≠ .duration := by
    cases gl with
    | borrowBlockhash => exact absurd rfl hhead
    | _ => exact hhead
  rcases hW.head hbefore with hl | he
  · have hphase := looping_iff.1 hl
    cases Generator.step_move h with
    | generated | generatePanic | sent => exact .inl hl
    | dropped => exact .inr rfl
    | stop => simp [BenchClient.allows, hbefore] at hok
    | borrow => exact absurd rfl hhead
    | overflow hp | refuse hp | accept hp | spawn hp | spawnPanic hp | full hp | joined _ _ hp
    | drained _ _ hp | noTask hp | ended hp => cases hphase.symm.trans hp
  · exact .inr (ended_step h he)

/-- Every way main can go on. -/
inductive Turn (s : BenchClient) : MainPhase → Bool → Prop where
  | created (hm : s.main = .creatingLeaderUpdater) : Turn s .joiningGenerator s.receiver
  | notCreated (hm : s.main = .creatingLeaderUpdater) : Turn s (.returned false) false
  | generator (hm : s.main = .joiningGenerator) (he : ended s.generator = true) :
      Turn s .joiningUpdater s.receiver
  | updater (hm : s.main = .joiningUpdater) (he : updaterEnded s.updater = true) :
      Turn s .joiningScheduler s.receiver
  | scheduler (hm : s.main = .joiningScheduler) (hr : s.receiver = false) :
      Turn s (.returned true) s.receiver

theorem leaderUpdater_turn {ok : Bool}
    (h : benchStep sdk P config s (.leaderUpdater ok) = some s') :
    ∃ main receiver, Turn s main receiver ∧ s' = { s with main := main, receiver := receiver } := by
  simp only [benchStep] at h
  split at h
  · split at h
    · cases h
      exact ⟨_, _, .created ‹_›, rfl⟩
    · cases h
      exact ⟨_, _, .notCreated ‹_›, rfl⟩
  · cases h

theorem join_turn (h : benchStep sdk P config s .join = some s') :
    ∃ main receiver, Turn s main receiver ∧ s' = { s with main := main, receiver := receiver } := by
  simp only [benchStep] at h
  split at h
  · split at h
    · cases h
      exact ⟨_, _, .generator ‹_› ‹_›, rfl⟩
    · cases h
  · split at h
    · cases h
      exact ⟨_, _, .updater ‹_› ‹_›, rfl⟩
    · cases h
  · split at h
    · cases h
    · rename_i hr
      cases h
      exact ⟨_, _, .scheduler ‹_› (Bool.eq_false_iff.2 hr), rfl⟩
  · cases h

theorem Wired.turn (hW : Wired s) {main : MainPhase} {receiver : Bool}
    (ht : Turn s main receiver) : Wired { s with main := main, receiver := receiver } := by
  refine ⟨hW.head, hW.receivers, ?_, hW.numbered⟩
  intro hc hj
  cases ht with
  | created => exact absurd rfl hj
  | notCreated => exact .inl rfl
  | generator _ he => exact .inr he
  | updater hm | scheduler hm =>
    rcases hW.joined (by simp [hm]) (by simp [hm]) with h | he
    · cases hm.symm.trans h
    · exact .inr he

theorem wired_step (h : benchStep sdk P config s l = some s') (hW : Wired s) : Wired s' := by
  cases l with
  | leaderUpdater ok =>
    obtain ⟨main, receiver, ht, rfl⟩ := leaderUpdater_turn h
    exact hW.turn ht
  | join =>
    obtain ⟨main, receiver, ht, rfl⟩ := join_turn h
    exact hW.turn ht
  | generator gl =>
    cases step_move h with
    | @generator gl g hok hg =>
      refine ⟨fun hhead => head_step hW hok hg hhead, ?_, ?_, numbered_step hg hW.numbered⟩
      · intro he
        show (s.updater.channel.receivers && !ended g) = false
        rw [show ended g = true from he]
        exact Bool.and_false _
      · intro hc hj
        rcases hW.joined hc hj with hm | he
        · exact .inl hm
        · exact .inr (ended_step hg he)
  | updater ul =>
    cases step_move h with
    | @updater ul u hu =>
      exact ⟨hW.head, fun he => receivers_step hu (hW.receivers he), hW.joined, hW.numbered⟩
  | passDuration =>
    cases step_move h with
    | passDuration hl => exact ⟨fun _ => .inl hl, hW.receivers, hW.joined, hW.numbered⟩
  | passReceiver =>
    cases step_move h with
    | passReceiver hl => exact ⟨fun _ => .inl hl, hW.receivers, hW.joined, hW.numbered⟩
  | schedulerEnds =>
    cases step_move h with
    | schedulerEnds => exact ⟨hW.head, hW.receivers, hW.joined, hW.numbered⟩

theorem wired_reachable (h : (bench sdk P config).Reachable s) : Wired s := by
  refine LTS.Inductive.reachable (P := Wired) ⟨?_, ?_⟩ s h
  · rintro s ⟨blockhash, rfl⟩
    exact ⟨fun hh => absurd rfl hh, fun he => (by cases he), fun hm => absurd rfl hm,
      ⟨List.nodup_nil, fun number hn => (by cases hn)⟩⟩
  · exact fun s l s' hW hs => wired_step hs hW

/-! ## The reason to end stays -/

theorem validating_step {g g' : TransactionGenerator} {gl : Generator.Label}
    (h : Generator.step sdk P g gl = some g') (hv : validating g = false) :
    validating g' = false ∧ gl ≠ .validate := by
  cases Generator.step_move h with
  | overflow hp | refuse hp | accept hp => simp [validating, hp] at hv
  | drained _ _ hp => exact ⟨hv, by simp⟩
  | generated | generatePanic | sent => exact ⟨hv, by simp⟩
  | spawn hp => exact ⟨hv, by simp⟩
  | stop | dropped | borrow | spawnPanic | full | joined | noTask | ended => exact ⟨rfl, by simp⟩

theorem now_step {u u' : BlockhashUpdater} {ul : Blockhash.Label}
    (h : Blockhash.step config u ul = some u') : u.now ≤ u'.now := by
  cases Blockhash.step_move h with
  | advance => exact Nat.le_add_right _ _
  | _ => exact Nat.le_refl _

/-- Time does not come back. -/
theorem timeLeft_mono (hstart : s'.start = s.start) (hnow : s.updater.now ≤ s'.updater.now)
    (h : s.timeLeft P = false) : s'.timeLeft P = false := by
  unfold BenchClient.timeLeft at h ⊢
  cases hd : P.runDuration with
  | none =>
    rw [hd] at h
    cases h
  | some runDuration =>
    rw [hd] at h
    simp only [decide_eq_false_iff_not] at h ⊢
    omega

theorem stopping_step (h : benchStep sdk P config s l = some s') (hs : s.Stopping P) :
    s'.Stopping P := by
  have turn {main : MainPhase} {receiver : Bool} (ht : Turn s main receiver) :
      BenchClient.Stopping P { s with main := main, receiver := receiver } := by
    cases ht with
    | notCreated => exact .inr (.inl rfl)
    | created | generator | updater | scheduler => exact hs
  cases l with
  | leaderUpdater ok =>
    obtain ⟨main, receiver, ht, rfl⟩ := leaderUpdater_turn h
    exact turn ht
  | join =>
    obtain ⟨main, receiver, ht, rfl⟩ := join_turn h
    exact turn ht
  | schedulerEnds =>
    cases step_move h with
    | schedulerEnds => exact .inr (.inl rfl)
  | passDuration =>
    cases step_move h with
    | passDuration => exact hs
  | passReceiver =>
    cases step_move h with
    | passReceiver => exact hs
  | updater ul =>
    cases step_move h with
    | @updater ul u hu =>
      rcases hs with he | hr | ⟨hv, ht⟩
      · exact .inl he
      · exact .inr (.inl hr)
      · exact .inr (.inr ⟨hv, @timeLeft_mono P s _ rfl (now_step hu) ht⟩)
  | generator gl =>
    cases step_move h with
    | @generator gl g hok hg =>
      rcases hs with he | hr | ⟨hv, ht⟩
      · exact .inl (ended_step hg he)
      · exact .inr (.inl hr)
      · obtain ⟨hv', hne⟩ := validating_step hg hv
        refine .inr (.inr ⟨hv', @timeLeft_mono P s _ ?_ (Nat.le_refl _) ht⟩)
        cases gl with
        | validate => exact absurd rfl hne
        | _ => rfl

/-! ## The work falls -/

theorem head_eq_duration (hW : Wired s) (hl : looping s.generator = false)
    (he : ended s.generator = false) : s.head = .duration := by
  by_contra hh
  rcases hW.head hh with h | h
  · rw [hl] at h
    cases h
  · rw [he] at h
    cases h

theorem generatorWork_setTask (P : Params) (g : TransactionGenerator) (number : Nat)
    (state : TaskState) (sent : List (List Bytes)) (generated : List (Nat × List TransferTx))
    (head : Head) (receiver : Bool) :
    generatorWork P { g with
      futures := setTask g.futures number state, sent := sent, generated := generated }
      head receiver = generatorWork P g head receiver := by
  simp only [generatorWork, spawnWork, setTask_length]

theorem generator_lowers {g : TransactionGenerator} {gl : Generator.Label} (hW : Wired s)
    (hok : s.allows P gl = true) (h : Generator.step sdk P s.generator gl = some g) :
    generatorWork P g (s.moved gl g).head s.receiver + poolWork g.futures <
      generatorWork P s.generator s.head s.receiver + poolWork s.generator.futures := by
  have away (hl : looping s.generator = false) (he : ended s.generator = false) :
      s.head = .duration := head_eq_duration hW hl he
  cases Generator.step_move h with
  | overflow hp | refuse hp =>
    simp only [generatorWork, hp]
    omega
  | accept hp =>
    have hhead := away (by simp [looping, hp]) (by simp [ended, hp])
    simp only [generatorWork, hp, BenchClient.moved, hhead]
    omega
  | stop hp =>
    simp only [BenchClient.allows, Bool.and_eq_true, decide_eq_true_eq] at hok
    simp only [generatorWork, hp, hok.1]
    omega
  | dropped hp =>
    simp only [BenchClient.allows, Bool.and_eq_true, decide_eq_true_eq,
      Bool.not_eq_true'] at hok
    simp only [generatorWork, hp, hok.1, hok.2, poolWork, List.map_nil, List.sum_nil]
    simp
  | borrow hp =>
    simp only [BenchClient.allows, Bool.and_eq_true, decide_eq_true_eq] at hok
    simp only [generatorWork, hp, hok.1, spawnWork]
    omega
  | spawn hp hroom =>
    rw [poolWork_spawn]
    simp only [generatorWork, hp, spawnWork, List.length_append, List.length_singleton]
    omega
  | spawnPanic hp =>
    simp only [generatorWork, hp, poolWork, List.map_nil, List.sum_nil]
    omega
  | full hp =>
    simp only [generatorWork, hp]
    omega
  | @generated t sample txs ht hgen =>
    have hpool := poolWork_setTask hW.numbered ht (.sending (wired txs))
    simp only [hgen, TaskState.work] at hpool
    rw [generatorWork_setTask]
    show generatorWork P s.generator s.head s.receiver +
      poolWork (setTask s.generator.futures t.number (.sending (wired txs))) < _
    omega
  | @generatePanic t _ ht hgen =>
    have hpool := poolWork_setTask hW.numbered ht .finished
    simp only [hgen, TaskState.work] at hpool
    rw [generatorWork_setTask]
    show generatorWork P s.generator s.head s.receiver +
      poolWork (setTask s.generator.futures t.number .finished) < _
    omega
  | @sent t _ _ ht hsend =>
    have hpool := poolWork_setTask hW.numbered ht .finished
    simp only [hsend, TaskState.work] at hpool
    rw [generatorWork_setTask]
    show generatorWork P s.generator s.head s.receiver +
      poolWork (setTask s.generator.futures t.number .finished) < _
    omega
  | @joined t ht hdone hp =>
    have hhead := away (by simp [looping, hp]) (by simp [ended, hp])
    have hpool := poolWork_join hW.numbered ht
    simp only [generatorWork, hp, BenchClient.moved, hhead]
    omega
  | @drained t ht hdone hp =>
    have hpool := poolWork_join hW.numbered ht
    simp only [hdone, TaskState.work] at hpool
    simp only [generatorWork, hp]
    omega
  | noTask hp =>
    have hhead := away (by simp [looping, hp]) (by simp [ended, hp])
    simp only [generatorWork, hp, BenchClient.moved, hhead]
    omega
  | ended hp =>
    simp only [generatorWork, hp]
    omega

/-- The updater comes to its last rounds when its receiver goes. -/
theorem updaterWork_moved (gl : Generator.Label) (g : TransactionGenerator) :
    (s.moved gl g).updaterWork ≤ s.updaterWork := by
  have hle := s.updater.phase.work_le
  unfold BenchClient.updaterWork BenchClient.moved
  cases s.updater.channel.receivers <;> cases ended g <;> simp only [Bool.and_true, Bool.and_false,
    Bool.not_true, Bool.not_false, if_true, if_false, Bool.false_eq_true] <;> omega

theorem generatorWork_dropped (P : Params) (g : TransactionGenerator) (head : Head)
    (receiver : Bool) : generatorWork P g head false ≤ generatorWork P g head receiver := by
  unfold generatorWork
  cases g.phase with
  | looping =>
    cases head with
    | receiver =>
      cases receiver with
      | false => exact Nat.le_refl _
      | true =>
        show 2 ≤ 7 + spawnWork P g
        omega
    | duration | borrow => exact Nat.le_refl _
  | _ => exact Nat.le_refl _

theorem turn_lowers {main : MainPhase} {receiver : Bool} (ht : Turn s main receiver) :
    BenchClient.work P { s with main := main, receiver := receiver } < s.work P := by
  cases ht with
  | created hm | generator hm | updater hm | scheduler hm =>
    simp only [BenchClient.work, BenchClient.updaterWork, hm, MainPhase.work]
    omega
  | notCreated hm =>
    have hle := generatorWork_dropped P s.generator s.head s.receiver
    simp only [BenchClient.work, BenchClient.updaterWork, hm, MainPhase.work, Bool.toNat_false]
    omega

/-- Each closing step lowers the work that is left. -/
theorem closing_lowers (hW : Wired s) (hs : s.Stopping P) (h : benchStep sdk P config s l = some s')
    (hl : s.closing l = true) : s'.work P < s.work P := by
  cases l with
  | leaderUpdater ok =>
    obtain ⟨main, receiver, ht, rfl⟩ := leaderUpdater_turn h
    exact turn_lowers ht
  | join =>
    obtain ⟨main, receiver, ht, rfl⟩ := join_turn h
    exact turn_lowers ht
  | updater ul =>
    cases step_move h with
    | @updater ul u hu =>
      simp only [BenchClient.closing, Bool.and_eq_true, Bool.not_eq_true'] at hl
      have hlt := own_lowers hu hl.1 hl.2
      have hr := receivers_step hu hl.2
      simp only [BenchClient.work, BenchClient.updaterWork, hl.2, hr, Bool.false_eq_true, if_false]
      omega
  | generator gl =>
    cases step_move h with
    | @generator gl g hok hg =>
      have hlt := generator_lowers hW hok hg
      have hle := updaterWork_moved (s := s) gl g
      show s.main.work + generatorWork P g (s.moved gl g).head s.receiver + poolWork g.futures +
        (s.moved gl g).updaterWork + s.receiver.toNat < s.work P
      unfold BenchClient.work
      omega
  | schedulerEnds =>
    cases step_move h with
    | schedulerEnds =>
      simp only [BenchClient.closing, Bool.and_eq_true] at hl
      have hle := generatorWork_dropped P s.generator s.head s.receiver
      simp only [BenchClient.work, BenchClient.updaterWork, Bool.toNat_false, hl.1,
        Bool.toNat_true] at hle ⊢
      omega
  | passDuration =>
    simp only [benchStep] at h
    split at h
    · rename_i hc
      obtain ⟨hlooping, hhead, htime⟩ := hc
      cases h
      have hphase := looping_iff.1 hlooping
      rcases hs with he | hr | ⟨-, ht⟩
      · simp [ended, hphase] at he
      · simp only [BenchClient.work, BenchClient.updaterWork, generatorWork, hphase, hhead, hr,
          Bool.false_eq_true, if_false]
        omega
      · cases ht.symm.trans htime
    · cases h
  | passReceiver =>
    simp only [benchStep] at h
    split at h
    · rename_i hc
      obtain ⟨hlooping, hhead, hr⟩ := hc
      cases h
      simp only [BenchClient.work, BenchClient.updaterWork, generatorWork,
        looping_iff.1 hlooping, hhead, hr, if_true]
      omega
    · cases h

/-- The other steps do not raise it. -/
theorem others_keep (h : benchStep sdk P config s l = some s') (hl : ¬ s.closing l = true) :
    s'.work P ≤ s.work P := by
  cases l with
  | leaderUpdater | join | generator | passDuration | passReceiver => exact absurd rfl hl
  | schedulerEnds =>
    cases step_move h with
    | schedulerEnds =>
      have hle := generatorWork_dropped P s.generator s.head s.receiver
      simp only [BenchClient.work, BenchClient.updaterWork, Bool.toNat_false]
      omega
  | updater ul =>
    cases step_move h with
    | @updater ul u hu =>
      have hle : BenchClient.updaterWork { s with updater := u } ≤ s.updaterWork := by
        cases hr : s.updater.channel.receivers with
        | true =>
          have hbound := u.phase.work_le
          simp only [BenchClient.updaterWork, hr, if_true]
          split <;> omega
        | false =>
          have hown : ul.own = false := by simpa [BenchClient.closing, hr] using hl
          cases Blockhash.step_move hu with
          | advance => exact Nat.le_refl _
          | dropReceivers => simp [BenchClient.updaterWork, hr]
          | _ => cases hown
      show s.main.work + generatorWork P s.generator s.head s.receiver +
        poolWork s.generator.futures + BenchClient.updaterWork { s with updater := u } +
          s.receiver.toNat ≤ s.work P
      unfold BenchClient.work
      omega

/-! ## There is more to do -/

/-- Some closing step is possible. -/
def GoesOn (sdk : Sdk) (P : Params) (config : BlockhashUpdaterConfig) (s : BenchClient) : Prop :=
  ∃ l s', s.closing l = true ∧ benchStep sdk P config s l = some s'

theorem goesOn (l : Label) (hl : s.closing l = true)
    (h : (benchStep sdk P config s l).isSome = true) : GoesOn sdk P config s := by
  obtain ⟨s', hs⟩ := Option.isSome_iff_exists.1 h
  exact ⟨l, s', hl, hs⟩

theorem generator_goesOn (he : ended s.generator = false) : GoesOn sdk P config s := by
  have own (gl : Generator.Label) (hok : s.allows P gl = true)
      (h : (Generator.step sdk P s.generator gl).isSome = true) : GoesOn sdk P config s := by
    refine goesOn (.generator gl) rfl ?_
    simp only [benchStep, if_pos hok, Option.isSome_map]
    exact h
  by_cases hp : s.generator.phase = .looping
  · cases hhead : s.head with
    | duration =>
      cases ht : s.timeLeft P with
      | true => exact goesOn .passDuration rfl (by simp [benchStep, looping, hp, hhead, ht])
      | false =>
        obtain ⟨runDuration, hd⟩ : ∃ runDuration, P.runDuration = some runDuration := by
          cases hd : P.runDuration with
          | none => simp [BenchClient.timeLeft, hd] at ht
          | some runDuration => exact ⟨runDuration, rfl⟩
        exact own .durationElapsed (by simp [BenchClient.allows, hhead, ht])
          (by simp [Generator.step, hp, hd])
    | receiver =>
      cases hr : s.receiver with
      | true => exact goesOn .passReceiver rfl (by simp [benchStep, looping, hp, hhead, hr])
      | false =>
        exact own .receiverDropped (by simp [BenchClient.allows, hhead, hr])
          (by simp [Generator.step, hp])
    | borrow =>
      exact own (.borrowBlockhash s.updater.channel.value) (by simp [BenchClient.allows, hhead])
        (by simp [Generator.step, hp])
  · have hne : s.generator.phase ≠ .panicked ∧ ∀ result, s.generator.phase ≠ .returned result := by
      constructor
      · intro hpanicked
        simp [ended, hpanicked] at he
      · intro result hreturned
        simp [ended, hreturned] at he
    obtain ⟨gl, hinner, hs⟩ := @inner_enabled sdk P _ s.receiver hp hne.1 hne.2
    refine own gl ?_ hs
    cases gl with
    | durationElapsed | receiverDropped | borrowBlockhash => cases hinner
    | send number delivered => exact hinner
    | _ => rfl

/-- Until `run_client` has returned some closing step is possible. -/
theorem closing_enabled (hW : Wired s) (hover : s.main.over = false) :
    GoesOn sdk P config s := by
  cases hm : s.main with
  | creatingLeaderUpdater => exact goesOn (.leaderUpdater false) rfl (by simp [benchStep, hm])
  | joiningGenerator =>
    cases he : ended s.generator with
    | true => exact goesOn .join rfl (by simp [benchStep, hm, he])
    | false => exact generator_goesOn he
  | joiningUpdater =>
    have he : ended s.generator = true :=
      (hW.joined (by simp [hm]) (by simp [hm])).resolve_left (by simp [hm])
    have hr := hW.receivers he
    cases hu : updaterEnded s.updater with
    | true => exact goesOn .join rfl (by simp [benchStep, hm, hu])
    | false =>
      have hne : ∀ result, s.updater.phase ≠ .returned result := by
        intro result hp
        rw [updaterEnded_iff.2 ⟨result, hp⟩] at hu
        cases hu
      obtain ⟨ul, u, hown, hstep⟩ := @own_enabled config _ hr hne
      refine goesOn (.updater ul) (by simp [BenchClient.closing, hown, hr]) ?_
      cases ul with
      | dropReceivers => cases hown
      | _ => simp [benchStep, hstep]
  | joiningScheduler =>
    have he : ended s.generator = true :=
      (hW.joined (by simp [hm]) (by simp [hm])).resolve_left (by simp [hm])
    cases hr : s.receiver with
    | true =>
      exact goesOn .schedulerEnds (by simp [BenchClient.closing, hr, he]) (by simp [benchStep, hm])
    | false => exact goesOn .join rfl (by simp [benchStep, hm, hr])
  | returned ok =>
    rw [hm] at hover
    cases hover

/-- The closing steps and the rest of the bench. -/
theorem closing_progress : Progress (bench sdk P config) (fun s l => s.closing l = true)
    (fun s => Wired s ∧ s.Stopping P) (·.work P) (·.main.over = true) where
  keeps _ _ _ hq hs := ⟨wired_step hs hq.1, stopping_step hs hq.2⟩
  lowers _ _ _ hq ho hs := closing_lowers hq.1 hq.2 hs ho
  others _ _ _ _ ho hs := others_keep hs ho
  enabled _ hq hg := closing_enabled hq.1 (Bool.eq_false_iff.2 hg)

/-- The leader updater was created. -/
def MainPhase.created : MainPhase → Bool
  | .creatingLeaderUpdater | .returned false => false
  | _ => true

/-- An error of a task that is joined is not one of `run_client`. -/
theorem created_step (h : benchStep sdk P config s l = some s') (hc : s.main.created = true) :
    s'.main.created = true := by
  have turn {main : MainPhase} {receiver : Bool} (ht : Turn s main receiver) :
      main.created = true := by
    cases ht with
    | notCreated hm =>
      rw [hm] at hc
      cases hc
    | _ => rfl
  cases l with
  | leaderUpdater ok =>
    obtain ⟨main, receiver, ht, rfl⟩ := leaderUpdater_turn h
    exact turn ht
  | join =>
    obtain ⟨main, receiver, ht, rfl⟩ := join_turn h
    exact turn ht
  | updater | generator | passDuration | passReceiver | schedulerEnds =>
    cases step_move h
    exact hc

/-- **The end.** From where the generator has a reason to end on, whatever else the tasks do in
between: only so many closing steps can be taken, one is possible until `run_client` has returned,
and the closing steps alone lead there. It returns no error then but that of the leader updater. -/
theorem bench_ends (h : (bench sdk P config).Reachable s) (hs : s.Stopping P) :
    (∀ n s', Counted (bench sdk P config) (fun s l => s.closing l = true) s n s' →
      n ≤ s.work P ∧ (s'.main.over = false →
        ∃ l t, s'.closing l = true ∧ (bench sdk P config).step s' l t)) ∧
    ∃ ls s', ((bench sdk P config).guard fun s l => s.closing l = true).Run s ls s' ∧
      s'.main.over = true ∧ (s.main.created = true → s'.main = .returned true) := by
  have hP := @closing_progress sdk P config
  have hq : Wired s ∧ s.Stopping P := ⟨wired_reachable h, hs⟩
  constructor
  · intro n s' hc
    have hle := hP.count_le hc hq
    refine ⟨by omega, ?_⟩
    intro hover
    exact hP.enabled s' (hP.counted_keeps hc hq) (by simp [hover])
  · obtain ⟨ls, s', hr, hover⟩ := hP.ranking.reaches hq
    refine ⟨ls, s', hr, hover, ?_⟩
    intro hc
    have hc' : s'.main.created = true := by
      refine LTS.run_induct (P := fun s : BenchClient => s.main.created = true) ?_ hr hc
      intro t l t' ht hstep
      exact created_step hstep.2 ht
    cases hm : s'.main with
    | returned ok =>
      rw [hm] at hc'
      cases ok with
      | true => rfl
      | false => cases hc'
    | _ =>
      rw [hm] at hover
      cases hover

/-- The two minutes in which the updater gives up are longer than the duration. -/
theorem bench_ends_timed : ∃ s,
    (bench Sender.plainSdk Bench.timedWorkers .default).Reachable s ∧ s.updater.stuck = true ∧
    ∃ ls s', (bench Sender.plainSdk Bench.timedWorkers .default).Run s ls s' ∧
      s'.main = .returned true := by
  obtain ⟨s, hs, hv⟩ := @LTS.reachable_of_view _ _ _ BenchClient.Started
    (benchStep Sender.plainSdk Bench.timedWorkers .default) _ ⟨Sender.plainHash, rfl⟩ untilStuck
    (fun s => (s.updater.stuck, validating s.generator, s.timeLeft Bench.timedWorkers,
      s.main.created)) (true, false, false, true) (by decide +kernel)
  simp only [Prod.mk.injEq] at hv
  obtain ⟨hstuck, hvalid, htime, hcreated⟩ := hv
  obtain ⟨-, ls, s', hr, -, hreturned⟩ := bench_ends hs (.inr (.inr ⟨hvalid, htime⟩))
  exact ⟨s, hs, hstuck, ls, s', LTS.guard_run hr, hreturned hcreated⟩

end TpuTools.Bench
