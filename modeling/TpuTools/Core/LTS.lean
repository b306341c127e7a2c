import Mathlib.Data.List.Basic

/-!
# Labelled transition systems

A system is a set of initial states and a labelled step relation (`LTS`); `Run` is a
finite sequence of steps and `Reachable` the states some run ends in. Programs are
mostly given by a partial step function (`LTS.ofFn`).

* `Inductive.reachable`: what holds initially and is kept by every step holds of every
  reachable state; `InductiveOver.reachable` is the same relative to facts already known
  of reachable states.
* `guard`: the runs whose steps all meet a condition on the state before the step.
* `Projection.reachable`: a map of states under which every step of one system is a run
  of another carries reachable states to reachable states.
* `Simulation.reachable`: the same for a relation between the states.
* `run_of_exec`: evaluating a list of labels gives a run.
-/
namespace TpuTools

/-- A labelled transition system over states `S` and labels `L`. -/
structure LTS (S L : Type) where
  init : S → Prop
  step : S → L → S → Prop

namespace LTS

variable {S T L K : Type}

/-- Finite runs, with the labels taken. -/
inductive Run (M : LTS S L) : S → List L → S → Prop where
  | nil (s : S) : Run M s [] s
  | cons {s s₁ s' : S} {l : L} {ls : List L} :
      M.step s l s₁ → Run M s₁ ls s' → Run M s (l :: ls) s'

def Reachable (M : LTS S L) (s : S) : Prop := ∃ s0 ls, M.init s0 ∧ M.Run s0 ls s

/-- `P` holds initially and every step keeps it. -/
structure Inductive (M : LTS S L) (P : S → Prop) : Prop where
  init : ∀ s, M.init s → P s
  step : ∀ s l s', P s → M.step s l s' → P s'

/-- `P` holds initially and every step from a state with `Q` keeps it. -/
structure InductiveOver (M : LTS S L) (Q P : S → Prop) : Prop where
  init : ∀ s, M.init s → P s
  step : ∀ s l s', Q s → P s → M.step s l s' → P s'

/-- The system of a partial step function: a label with result `none` is not enabled. -/
def ofFn (init : S → Prop) (f : S → L → Option S) : LTS S L where
  init := init
  step s l s' := f s l = some s'

/-- Only the steps whose source state and label meet `ok`. -/
def guard (M : LTS S L) (ok : S → L → Prop) : LTS S L where
  init := M.init
  step s l s' := ok s l ∧ M.step s l s'

/-! ## Runs -/

theorem Run.append {M : LTS S L} {a b d : S} {l1 l2 : List L} (h1 : M.Run a l1 b)
    (h2 : M.Run b l2 d) : M.Run a (l1 ++ l2) d := by
  induction h1 with
  | nil => exact h2
  | cons hs _ ih => exact .cons hs (ih h2)

theorem Run.single {M : LTS S L} {s s' : S} {l : L} (h : M.step s l s') : M.Run s [l] s' :=
  .cons h (.nil _)

theorem Reachable.init {M : LTS S L} {s : S} (h : M.init s) : M.Reachable s :=
  ⟨s, [], h, .nil _⟩

theorem Reachable.run {M : LTS S L} {s s' : S} {ls : List L} (h : M.Reachable s)
    (hr : M.Run s ls s') : M.Reachable s' := by
  obtain ⟨s0, ls0, h0, hr0⟩ := h
  exact ⟨s0, ls0 ++ ls, h0, hr0.append hr⟩

theorem Reachable.step {M : LTS S L} {s s' : S} {l : L} (h : M.Reachable s)
    (hs : M.step s l s') : M.Reachable s' :=
  h.run (.single hs)

/-! ## Invariants -/

/-- The run rule: an invariant of every step is one of every run. -/
theorem run_induct {M : LTS S L} {P : S → Prop}
    (hstep : ∀ s l s', P s → M.step s l s' → P s') {s s' : S} {ls : List L}
    (hr : M.Run s ls s') (h : P s) : P s' := by
  induction hr with
  | nil => exact h
  | cons hs _ ih => exact ih (hstep _ _ _ h hs)

theorem Inductive.reachable {M : LTS S L} {P : S → Prop} (hI : M.Inductive P) (s : S)
    (h : M.Reachable s) : P s := by
  obtain ⟨s0, ls, h0, hr⟩ := h
  exact run_induct hI.step hr (hI.init s0 h0)

theorem InductiveOver.reachable {M : LTS S L} {Q P : S → Prop} (hI : M.InductiveOver Q P)
    (hQ : ∀ s, M.Reachable s → Q s) (s : S) (h : M.Reachable s) : P s := by
  obtain ⟨s0, ls, h0, hr⟩ := h
  have key : M.Reachable s ∧ P s := by
    refine run_induct (P := fun s => M.Reachable s ∧ P s) ?_ hr ⟨.init h0, hI.init s0 h0⟩
    rintro a l b ⟨ha, hp⟩ hs
    exact ⟨ha.step hs, hI.step a l b (hQ a ha) hp hs⟩
  exact key.2

/-! ## Guarded runs -/

theorem guard_run {M : LTS S L} {ok : S → L → Prop} {s s' : S} {ls : List L}
    (h : (M.guard ok).Run s ls s') : M.Run s ls s' := by
  induction h with
  | nil => exact .nil _
  | cons hs _ ih => exact .cons hs.2 ih

/-- A run of labels that are always allowed. -/
theorem Run.guarded {M : LTS S L} {ok : S → L → Prop} {s s' : S} {ls : List L}
    (h : M.Run s ls s') (hok : ∀ l ∈ ls, ∀ t, ok t l) : (M.guard ok).Run s ls s' := by
  induction h with
  | nil => exact .nil _
  | cons hs _ ih =>
    exact .cons ⟨hok _ List.mem_cons_self _, hs⟩ (ih fun l hl => hok l (List.mem_cons_of_mem _ hl))

theorem guard_reachable {M : LTS S L} {ok : S → L → Prop} {s : S}
    (h : (M.guard ok).Reachable s) : M.Reachable s := by
  obtain ⟨s0, ls, h0, hr⟩ := h
  exact ⟨s0, ls, h0, guard_run hr⟩

/-- A run that meets a condition meets every weaker one. -/
theorem guard_mono {M : LTS S L} {ok ok' : S → L → Prop} (hok : ∀ s l, ok s l → ok' s l) {s : S}
    (h : (M.guard ok).Reachable s) : (M.guard ok').Reachable s := by
  refine Inductive.reachable (P := fun s => (M.guard ok').Reachable s) ⟨?_, ?_⟩ s h
  · intro s h0
    exact .init h0
  · intro s l s' hr hs
    exact hr.step ⟨hok s l hs.1, hs.2⟩

/-! ## Projections -/

/-- Every step of `M` is, seen through `f`, a run of `N`. -/
structure Projection (M : LTS S L) (N : LTS T K) (f : S → T) : Prop where
  init : ∀ s, M.init s → N.init (f s)
  step : ∀ s l s', M.step s l s' → ∃ ks, N.Run (f s) ks (f s')

theorem Projection.reachable {M : LTS S L} {N : LTS T K} {f : S → T} (hP : Projection M N f)
    (s : S) (h : M.Reachable s) : N.Reachable (f s) := by
  refine Inductive.reachable (P := fun s => N.Reachable (f s)) ⟨?_, ?_⟩ s h
  · intro s h0
    exact .init (hP.init s h0)
  · intro s l s' hr hs
    obtain ⟨ks, hk⟩ := hP.step s l s' hs
    exact hr.run hk

/-- Every step of `M` is, for related states, a run of `N` to related states. -/
structure Simulation (M : LTS S L) (N : LTS T K) (R : S → T → Prop) : Prop where
  init : ∀ s, M.init s → ∃ t, N.init t ∧ R s t
  step : ∀ s t l s', R s t → M.step s l s' → ∃ ks t', N.Run t ks t' ∧ R s' t'

theorem Simulation.reachable {M : LTS S L} {N : LTS T K} {R : S → T → Prop}
    (hR : Simulation M N R) (s : S) (h : M.Reachable s) : ∃ t, N.Reachable t ∧ R s t := by
  refine Inductive.reachable (P := fun s => ∃ t, N.Reachable t ∧ R s t) ⟨?_, ?_⟩ s h
  · intro s h0
    obtain ⟨t, ht, hr⟩ := hR.init s h0
    exact ⟨t, .init ht, hr⟩
  · intro s l s' ⟨t, ht, hr⟩ hs
    obtain ⟨ks, t', hk, hr'⟩ := hR.step s t l s' hr hs
    exact ⟨t', ht.run hk, hr'⟩

/-! ## Evaluating a run -/

/-- The state after the labels of `ls`, `none` when one of them is not enabled. -/
def exec (f : S → L → Option S) : S → List L → Option S
  | s, [] => some s
  | s, l :: ls => (f s l).bind fun s' => exec f s' ls

theorem run_of_exec (init : S → Prop) (f : S → L → Option S) :
    ∀ (ls : List L) (s s' : S), exec f s ls = some s' → (ofFn init f).Run s ls s'
  | [], s, s', h => by
    simp only [exec, Option.some.injEq] at h
    subst h
    exact .nil _
  | l :: ls, s, s', h => by
    simp only [exec, Option.bind_eq_some_iff] at h
    obtain ⟨s₁, h₁, h₂⟩ := h
    exact .cons h₁ (run_of_exec init f ls s₁ s' h₂)

/-- A run given by its labels, and what is to be seen of its last state. -/
theorem reachable_of_view {α : Type} {init : S → Prop} {f : S → L → Option S} {s0 : S}
    (h0 : init s0) (ls : List L) (view : S → α) (a : α)
    (h : (exec f s0 ls).map view = some a) : ∃ s, (ofFn init f).Reachable s ∧ view s = a := by
  obtain ⟨s, hs, hv⟩ := Option.map_eq_some_iff.1 h
  exact ⟨s, ⟨s0, ls, h0, run_of_exec init f ls s0 s hs⟩, hv⟩

theorem guard_run_of_exec (init : S → Prop) (f : S → L → Option S) (ok : S → L → Prop)
    [∀ s l, Decidable (ok s l)] : ∀ (ls : List L) (s s' : S),
      exec (fun s l => if ok s l then f s l else none) s ls = some s' →
        ((ofFn init f).guard ok).Run s ls s'
  | [], s, s', h => by
    simp only [exec, Option.some.injEq] at h
    subst h
    exact .nil _
  | l :: ls, s, s', h => by
    simp only [exec, Option.bind_eq_some_iff] at h
    obtain ⟨s₁, h₁, h₂⟩ := h
    split at h₁
    · rename_i hok
      exact .cons ⟨hok, h₁⟩ (guard_run_of_exec init f ok ls s₁ s' h₂)
    · cases h₁

theorem guard_reachable_of_view {α : Type} {init : S → Prop} {f : S → L → Option S}
    (ok : S → L → Prop) [∀ s l, Decidable (ok s l)] {s0 : S} (h0 : init s0) (ls : List L)
    (view : S → α) (a : α)
    (h : (exec (fun s l => if ok s l then f s l else none) s0 ls).map view = some a) :
    ∃ s, ((ofFn init f).guard ok).Reachable s ∧ view s = a := by
  obtain ⟨s, hs, hv⟩ := Option.map_eq_some_iff.1 h
  exact ⟨s, ⟨s0, ls, h0, guard_run_of_exec init f ok ls s0 s hs⟩, hv⟩

end LTS

end TpuTools
