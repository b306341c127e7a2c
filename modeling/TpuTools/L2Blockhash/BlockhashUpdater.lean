import TpuTools.Core.LTS
import TpuTools.L1Data.Keys

/-!
# The blockhash updater (`tools-common/src/blockhash_updater.rs`)

`BlockhashUpdater::run` fetches the latest blockhash again and again and publishes every new
one in a watch channel. It returns when all receivers are gone, and with an error when no new
blockhash came for `stuck_interval`. Returning drops the sender; a receiver still reads the
last value then, nothing of the error is in the channel.

A step is one access to the channel, one answer of the RPC client or one reading of the
clock, so everything else can happen in between. Times are in nanoseconds.

* `step_stuck`, `stuck_of_step`: the error is final, and only the check returns it.
-/
namespace TpuTools.Blockhash

/-- mirrors tools-common/src/blockhash_updater.rs:15-24 -/
structure BlockhashUpdaterConfig where
  updateInterval : Nat
  stuckInterval : Nat
  notUpdatingInterval : Nat
  errorReportInterval : Nat
  deriving DecidableEq, Repr

/-- mirrors tools-common/src/blockhash_updater.rs:26-35 -/
def BlockhashUpdaterConfig.default : BlockhashUpdaterConfig where
  updateInterval := 1 * 10 ^ 9
  stuckInterval := 120 * 10 ^ 9
  notUpdatingInterval := 30 * 10 ^ 9
  errorReportInterval := 1 * 10 ^ 9

/-- mirrors tools-common/src/blockhash_updater.rs:37-41 -/
inductive BlockhashUpdaterError where
  | blockhashStuck
  deriving DecidableEq, Repr

/-- `tokio::sync::watch` with one sender. -/
structure WatchChannel where
  /-- what `borrow` reads, also when the sender is gone -/
  value : Hash
  senderAlive : Bool
  /-- some receiver is left -/
  receivers : Bool

inductive Phase where
  | starting
  /-- at the head of `while` -/
  | looping
  /-- the tick and the request -/
  | fetching
  | fetched (answer : Option Hash)
  | sending (newBlockhash : Hash)
  /-- at the first `elapsed` -/
  | checking
  | warning
  | returned (result : Except BlockhashUpdaterError Unit)
  deriving DecidableEq

/-- The task with its channel and the clock. -/
structure BlockhashUpdater where
  phase : Phase
  channel : WatchChannel
  lastBlockhash : Hash
  blockhashLastUpdated : Nat
  lastErrorLog : Nat
  now : Nat

/-- `Hash::default()` -/
def defaultHash : Hash := ⟨List.replicate 32 0, by decide⟩

/-- The channel holds the blockhash `run_client` fetched.
mirrors tools-common/src/blockhash_updater.rs:51-58 -/
def BlockhashUpdater.new (blockhash : Hash) : BlockhashUpdater where
  phase := .starting
  channel := ⟨blockhash, true, true⟩
  lastBlockhash := defaultHash
  blockhashLastUpdated := 0
  lastErrorLog := 0
  now := 0

inductive Label where
  | start
  | isClosed
  /-- the tick came and the request was answered -/
  | answer (res : Option Hash)
  | compare
  | send
  | check
  | warn
  /-- time passes -/
  | advance (elapsed : Nat)
  /-- the last receiver is dropped -/
  | dropReceivers
  deriving DecidableEq

/-- `run` returns, which drops the sender. -/
def BlockhashUpdater.return (s : BlockhashUpdater) (result : Except BlockhashUpdaterError Unit) :
    BlockhashUpdater :=
  { s with phase := .returned result, channel := { s.channel with senderAlive := false } }

/-- The check of `stuck_interval` fails now. -/
def BlockhashUpdater.Overdue (config : BlockhashUpdaterConfig) (s : BlockhashUpdater) : Prop :=
  config.stuckInterval < s.now - s.blockhashLastUpdated

instance (config : BlockhashUpdaterConfig) (s : BlockhashUpdater) : Decidable (s.Overdue config) :=
  inferInstanceAs (Decidable (_ < _))

variable (config : BlockhashUpdaterConfig)

/-- mirrors tools-common/src/blockhash_updater.rs:74-101 -/
def step (s : BlockhashUpdater) : Label → Option BlockhashUpdater
  | .start =>
    match s.phase with
    | .starting =>
      some { s with phase := .looping, blockhashLastUpdated := s.now, lastErrorLog := s.now }
    | _ => none
  | .isClosed =>
    match s.phase with
    | .looping =>
      if s.channel.receivers then some { s with phase := .fetching } else some (s.return (.ok ()))
    | _ => none
  | .answer res =>
    match s.phase with
    | .fetching => some { s with phase := .fetched res }
    | _ => none
  | .compare =>
    match s.phase with
    | .fetched (some newBlockhash) =>
      if newBlockhash ≠ s.lastBlockhash then
        some { s with phase := .sending newBlockhash, lastBlockhash := newBlockhash }
      else some { s with phase := .checking }
    | .fetched none => some { s with phase := .checking }
    | _ => none
  | .send =>
    match s.phase with
    | .sending newBlockhash =>
      if s.channel.receivers then
        some { s with
          phase := .checking
          channel := { s.channel with value := newBlockhash }
          blockhashLastUpdated := s.now }
      -- nobody is left: `break`
      else some (s.return (.ok ()))
    | _ => none
  | .check =>
    match s.phase with
    | .checking =>
      if s.Overdue config then some (s.return (.error .blockhashStuck))
      else some { s with phase := .warning }
    | _ => none
  | .warn =>
    match s.phase with
    | .warning =>
      some { s with
        phase := .looping
        lastErrorLog :=
          if config.notUpdatingInterval < s.now - s.blockhashLastUpdated ∧
              config.errorReportInterval ≤ s.now - s.lastErrorLog then s.now
          else s.lastErrorLog }
    | _ => none
  | .advance elapsed => some { s with now := s.now + elapsed }
  | .dropReceivers => some { s with channel := { s.channel with receivers := false } }

def BlockhashUpdater.Started (s : BlockhashUpdater) : Prop := ∃ blockhash, s = .new blockhash

def lts : LTS BlockhashUpdater Label := .ofFn BlockhashUpdater.Started (step config)

/-- `run` has returned `Err(BlockhashStuck)`. -/
def BlockhashUpdater.stuck (s : BlockhashUpdater) : Bool :=
  decide (s.phase = .returned (.error .blockhashStuck))

variable {config}

/-- Every way a step can go. -/
inductive Move (config : BlockhashUpdaterConfig) (s : BlockhashUpdater) :
    Label → BlockhashUpdater → Prop where
  | start (hp : s.phase = .starting) : Move config s .start
      { s with phase := .looping, blockhashLastUpdated := s.now, lastErrorLog := s.now }
  | closed (hp : s.phase = .looping) (hr : s.channel.receivers = false) :
      Move config s .isClosed (s.return (.ok ()))
  | fetch (hp : s.phase = .looping) (hr : s.channel.receivers = true) :
      Move config s .isClosed { s with phase := .fetching }
  | answer {res : Option Hash} (hp : s.phase = .fetching) :
      Move config s (.answer res) { s with phase := .fetched res }
  | changed {newBlockhash : Hash} (hp : s.phase = .fetched (some newBlockhash))
      (hne : newBlockhash ≠ s.lastBlockhash) : Move config s .compare
        { s with phase := .sending newBlockhash, lastBlockhash := newBlockhash }
  | same (hp : s.phase = .fetched (some s.lastBlockhash)) :
      Move config s .compare { s with phase := .checking }
  | failed (hp : s.phase = .fetched none) : Move config s .compare { s with phase := .checking }
  | sent {newBlockhash : Hash} (hp : s.phase = .sending newBlockhash)
      (hr : s.channel.receivers = true) : Move config s .send { s with
        phase := .checking
        channel := { s.channel with value := newBlockhash }
        blockhashLastUpdated := s.now }
  | broken {newBlockhash : Hash} (hp : s.phase = .sending newBlockhash)
      (hr : s.channel.receivers = false) : Move config s .send (s.return (.ok ()))
  | stuck (hp : s.phase = .checking) (ho : s.Overdue config) :
      Move config s .check (s.return (.error .blockhashStuck))
  | fresh (hp : s.phase = .checking) (ho : ¬ s.Overdue config) :
      Move config s .check { s with phase := .warning }
  | warned {lastErrorLog : Nat} (hp : s.phase = .warning) :
      Move config s .warn { s with phase := .looping, lastErrorLog := lastErrorLog }
  | advance {elapsed : Nat} : Move config s (.advance elapsed) { s with now := s.now + elapsed }
  | dropReceivers : Move config s .dropReceivers
      { s with channel := { s.channel with receivers := false } }

theorem step_move {s s' : BlockhashUpdater} {l : Label} (h : step config s l = some s') :
    Move config s l s' := by
  cases l with
  | start =>
    simp only [step] at h
    split at h
    · cases h
      exact .start ‹_›
    · cases h
  | isClosed =>
    simp only [step] at h
    split at h
    · split at h
      · cases h
        exact .fetch ‹_› ‹_›
      · rename_i hr
        cases h
        exact .closed ‹_› (Bool.eq_false_iff.2 hr)
    · cases h
  | answer res =>
    simp only [step] at h
    split at h
    · cases h
      exact .answer ‹_›
    · cases h
  | compare =>
    simp only [step] at h
    split at h
    · rename_i newBlockhash hp
      split at h
      · rename_i hne
        cases h
        exact .changed hp hne
      · rename_i heq
        cases h
        rw [not_not.1 heq] at hp
        exact .same hp
    · cases h
      exact .failed ‹_›
    · cases h
  | send =>
    simp only [step] at h
    split at h
    · split at h
      · cases h
        exact .sent ‹_› ‹_›
      · rename_i hr
        cases h
        exact .broken ‹_› (Bool.eq_false_iff.2 hr)
    · cases h
  | check =>
    simp only [step] at h
    split at h
    · split at h
      · cases h
        exact .stuck ‹_› ‹_›
      · cases h
        exact .fresh ‹_› ‹_›
    · cases h
  | warn =>
    simp only [step] at h
    split at h
    · cases h
      exact .warned ‹_›
    · cases h
  | advance elapsed =>
    cases h
    exact .advance
  | dropReceivers =>
    cases h
    exact .dropReceivers

/-- The error is final. -/
theorem step_stuck {s s' : BlockhashUpdater} {l : Label} (h : step config s l = some s')
    (hs : s.stuck = true) : s'.stuck = true := by
  have hp : s.phase = .returned (.error .blockhashStuck) := of_decide_eq_true hs
  cases step_move h with
  | advance | dropReceivers => exact hs
  | _ => simp_all

/-- Only the check returns it. -/
theorem stuck_of_step {s s' : BlockhashUpdater} {l : Label} (h : step config s l = some s')
    (hs : s'.stuck = true) :
    s.stuck = true ∨ l = .check ∧ s.phase = .checking ∧ s.Overdue config := by
  cases step_move h with
  | stuck hp ho => exact .inr ⟨rfl, hp, ho⟩
  | advance | dropReceivers => exact .inl hs
  | _ => simp [BlockhashUpdater.stuck, BlockhashUpdater.return] at hs

end TpuTools.Blockhash
