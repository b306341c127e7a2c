import TpuTools.Core.LTS

/-!
# Periodic ticks

`tokio::time::interval`: the first tick is due at once, and each later one a period after the one
before was due, however late that was taken (`MissedTickBehavior::Burst`, the default). A `Paced`
system takes some of its steps only when its ticker has a tick for them.

* `Paced.OnTime`: where the ticker stands after the ticks so far.
* `Paced.OnTime.ticks_le`: never ahead of the clock.
* `Paced.OnTime.ticks_eq`: and when no tick is due, none was left out.
-/
namespace TpuTools

structure Interval where
  period : Nat
  /-- when the next tick is due -/
  deadline : Nat
  deriving DecidableEq, Repr

namespace Interval

/-- `interval(period)` -/
def new (now period : Nat) : Interval := ⟨period, now⟩

/-- `tick` returns. -/
def tick (i : Interval) (now : Nat) : Option Interval :=
  if i.deadline ≤ now then some { i with deadline := i.deadline + i.period } else none

end Interval

/-- What a step has to do with the ticker. -/
inductive TickerUse where
  | creates
  | ticks
  | other
  deriving DecidableEq, Repr

/-- The clock of a system and the steps that use the ticker. -/
structure Pace (S L : Type) where
  now : S → Nat
  use : L → TickerUse
  period : Nat

structure Paced (S : Type) where
  state : S
  ticker : Option Interval
  /-- ghost: when the ticker was created -/
  started : Nat
  /-- ghost: the ticks since then -/
  ticks : Nat

variable {S L : Type}

def pacedStep (C : Pace S L) (f : S → L → Option S) (p : Paced S) (l : L) : Option (Paced S) :=
  (f p.state l).bind fun s =>
    match C.use l with
    | .creates => some ⟨s, some (.new (C.now s) C.period), C.now s, 0⟩
    | .ticks => (p.ticker.bind fun i => i.tick (C.now p.state)).map fun i =>
        ⟨s, some i, p.started, p.ticks + 1⟩
    | .other => some { p with state := s }

def Paced.Started (init : S → Prop) (p : Paced S) : Prop :=
  init p.state ∧ p.ticker = none ∧ p.ticks = 0

def paced (C : Pace S L) (init : S → Prop) (f : S → L → Option S) : LTS (Paced S) L :=
  .ofFn (Paced.Started init) (pacedStep C f)

/-- Every way a step can go. -/
inductive PacedMove (C : Pace S L) (p : Paced S) (l : L) (s : S) : Paced S → Prop where
  | creates (hl : C.use l = .creates) :
      PacedMove C p l s ⟨s, some (.new (C.now s) C.period), C.now s, 0⟩
  | ticks {i : Interval} (hl : C.use l = .ticks) (hi : p.ticker = some i)
      (hdue : i.deadline ≤ C.now p.state) : PacedMove C p l s
        ⟨s, some { i with deadline := i.deadline + i.period }, p.started, p.ticks + 1⟩
  | other (hl : C.use l = .other) : PacedMove C p l s { p with state := s }

variable {C : Pace S L} {init : S → Prop} {f : S → L → Option S} {p p' : Paced S} {l : L}

theorem paced_move (h : pacedStep C f p l = some p') :
    ∃ s, f p.state l = some s ∧ PacedMove C p l s p' := by
  obtain ⟨s, hs, h⟩ := Option.bind_eq_some_iff.1 h
  refine ⟨s, hs, ?_⟩
  split at h
  · cases h
    exact .creates ‹_›
  · obtain ⟨i', hi', rfl⟩ := Option.map_eq_some_iff.1 h
    obtain ⟨i, hi, htick⟩ := Option.bind_eq_some_iff.1 hi'
    unfold Interval.tick at htick
    split at htick
    · cases htick
      exact .ticks ‹_› hi ‹_›
    · cases htick
  · cases h
    exact .other ‹_›

/-- Without its ticker the system is the one it was. -/
theorem paced_projection : LTS.Projection (paced C init f) (.ofFn init f) (·.state) where
  init _ h := h.1
  step p l p' h := by
    obtain ⟨s, hs, hmove⟩ := paced_move h
    have heq : p'.state = s := by
      cases hmove with
      | creates | ticks | other => rfl
    rw [heq]
    exact ⟨[l], .single hs⟩

namespace Paced

/-- The next tick is due `ticks` periods after the start, and the last one was due by now. -/
structure OnTime (C : Pace S L) (p : Paced S) (i : Interval) : Prop where
  period : i.period = C.period
  deadline : i.deadline = p.started + p.ticks * C.period
  started : p.started ≤ C.now p.state
  last : i.deadline ≤ C.now p.state + C.period

theorem onTime_step (hclock : ∀ s l s', f s l = some s' → C.now s ≤ C.now s')
    (h : pacedStep C f p l = some p') (hI : ∀ i, p.ticker = some i → OnTime C p i) {i : Interval}
    (hi : p'.ticker = some i) : OnTime C p' i := by
  obtain ⟨s, hs, hmove⟩ := paced_move h
  have hnow := hclock _ _ _ hs
  cases hmove with
  | creates =>
    cases hi
    refine ⟨rfl, ?_, Nat.le_refl _, Nat.le_add_right _ _⟩
    rw [Nat.zero_mul]
    rfl
  | @ticks i hl hticker hdue =>
    cases hi
    obtain ⟨hperiod, hdeadline, hstarted, -⟩ := hI i hticker
    refine ⟨hperiod, ?_, Nat.le_trans hstarted hnow, ?_⟩
    · show i.deadline + i.period = p.started + (p.ticks + 1) * C.period
      rw [hdeadline, hperiod, Nat.add_mul, Nat.one_mul, Nat.add_assoc]
    · show i.deadline + i.period ≤ C.now s + C.period
      rw [hperiod]
      omega
  | other =>
    obtain ⟨hperiod, hdeadline, hstarted, hlast⟩ := hI i hi
    refine ⟨hperiod, hdeadline, Nat.le_trans hstarted hnow, ?_⟩
    show i.deadline ≤ C.now s + C.period
    omega

theorem onTime_reachable (hclock : ∀ s l s', f s l = some s' → C.now s ≤ C.now s')
    (h : (paced C init f).Reachable p) {i : Interval} (hi : p.ticker = some i) : OnTime C p i := by
  refine LTS.Inductive.reachable (P := fun p => ∀ i, p.ticker = some i → OnTime C p i) ⟨?_, ?_⟩
    p h i hi
  · intro p hp i hi
    cases hp.2.1.symm.trans hi
  · intro p l p' hI hs i hi
    exact onTime_step hclock hs hI hi

theorem OnTime.ticks_le {i : Interval} (hO : OnTime C p i) (hp : 0 < C.period) :
    p.ticks ≤ (C.now p.state - p.started) / C.period + 1 := by
  have hlast := hO.last
  have hstarted := hO.started
  rw [hO.deadline] at hlast
  cases ht : p.ticks with
  | zero => exact Nat.zero_le _
  | succ n =>
    rw [ht, Nat.add_mul, Nat.one_mul] at hlast
    have hle : n ≤ (C.now p.state - p.started) / C.period := by
      rw [Nat.le_div_iff_mul_le hp]
      omega
    omega

theorem OnTime.ticks_eq {i : Interval} (hO : OnTime C p i) (hp : 0 < C.period)
    (hdue : C.now p.state < i.deadline) :
    p.ticks = (C.now p.state - p.started) / C.period + 1 := by
  have hle := hO.ticks_le hp
  have hstarted := hO.started
  rw [hO.deadline] at hdue
  have hlt : (C.now p.state - p.started) / C.period < p.ticks := by
    rw [Nat.div_lt_iff_lt_mul hp]
    omega
  omega

end Paced

end TpuTools
