import TpuTools.L2Generator.Delivery

/-!
# The pool of worker tasks, as a thing that empties

What the tasks of the generator have left to do, whatever the parameters are: a task generates,
sends and is joined.

* `poolWork_setTask`, `poolWork_join`: one task goes on, or leaves.
* `inner_enabled`: away from its loop head, and until it has ended, the generator always has a
  step.
-/
namespace TpuTools.Generator

variable {sdk : Sdk} {P : Params} {s s' : TransactionGenerator} {l : Label}

/-! ## What is left to do -/

/-- The steps a task still takes, with its join. -/
def TaskState.work : TaskState → Nat
  | .generating => 3
  | .sending _ => 2
  | .finished => 1

def poolWork (futures : List Task) : Nat := (futures.map (·.state.work)).sum

theorem poolWork_eq (futures : List Task) :
    poolWork futures = (futures.filterMap fun t => some t.state.work).sum := by
  rw [List.filterMap_eq_map']
  rfl

/-- A task goes on to `state`. -/
theorem poolWork_setTask (hN : Numbered s) {t : Task} (ht : t ∈ s.futures) (state : TaskState) :
    poolWork (setTask s.futures t.number state) + t.state.work =
      poolWork s.futures + state.work := by
  obtain ⟨rest, hbefore, hafter⟩ :=
    setTask_filterMap hN.nodup ht state fun t => some t.state.work
  have hb := hbefore.sum_nat
  have ha := hafter.sum_nat
  simp only [Option.toList_some, List.singleton_append, List.sum_cons] at hb ha
  rw [poolWork_eq, poolWork_eq, hb, ha]
  omega

/-- A task leaves. -/
theorem poolWork_join (hN : Numbered s) {t : Task} (ht : t ∈ s.futures) :
    poolWork (s.futures.filter (·.number ≠ t.number)) + t.state.work = poolWork s.futures := by
  have h := (filterMap_remove hN.nodup ht fun t => some t.state.work).sum_nat
  simp only [Option.toList_some, List.singleton_append, List.sum_cons] at h
  rw [poolWork_eq, poolWork_eq, h]
  omega

theorem poolWork_spawn (futures : List Task) (number indexPayer : Nat) (blockhash : Hash) :
    poolWork (futures ++ [⟨number, indexPayer, blockhash, .generating⟩]) =
      poolWork futures + 3 := by
  unfold poolWork
  rw [List.map_append, List.sum_append]
  rfl

/-! ## There is more to do -/

/-- The steps that do not read anything outside the generator but whether the receiver is
there. -/
def Label.inner (receiver : Bool) : Label → Bool
  | .durationElapsed | .receiverDropped | .borrowBlockhash _ => false
  | .send _ delivered => delivered == receiver
  | _ => true

/-- A task that is there goes on, unless it waits to be joined and nobody joins. -/
theorem task_enabled (receiver : Bool) {t : Task} {futures : List Task}
    (hf : s.futures = t :: futures) (hjoin : s.phase = .joining ∨ s.phase = .stopping) :
    ∃ l, l.inner receiver = true ∧ (step sdk P s l).isSome = true := by
  have hfind := find_head hf
  obtain ⟨number, indexPayer, blockhash, state⟩ := t
  cases state with
  | generating =>
    obtain ⟨sample, hsample⟩ : ∃ sample,
        IsSample P.transactionParams.lamportsToTransfer P.count sample :=
      ⟨_, isSample_range' _ _⟩
    refine ⟨.generate number sample, rfl, ?_⟩
    simp only [step, hfind, if_pos hsample]
    split <;> rfl
  | sending batch =>
    refine ⟨.send number receiver, beq_self_eq_true receiver, ?_⟩
    simp [step, hfind]
  | finished =>
    refine ⟨.joinNext number, rfl, ?_⟩
    rcases hjoin with hp | hp <;> simp [step, hfind, hp]

theorem inner_enabled (receiver : Bool) (hlooping : s.phase ≠ .looping)
    (hpanicked : s.phase ≠ .panicked) (hreturned : ∀ result, s.phase ≠ .returned result) :
    ∃ l, l.inner receiver = true ∧ (step sdk P s l).isSome = true := by
  cases hp : s.phase with
  | validating =>
    refine ⟨.validate, rfl, ?_⟩
    simp only [step, hp]
    cases P.transferTxMinCuBudget with
    | none => rfl
    | some minCuBudget =>
      simp only
      split <;> rfl
  | looping => exact absurd hp hlooping
  | spawning blockhash =>
    by_cases hroom : s.futures.length < P.workersPullSize
    · refine ⟨.spawn, rfl, ?_⟩
      simp only [step, hp, if_pos hroom]
      split <;> rfl
    · exact ⟨.poolFull, rfl, by simp [step, hp, hroom]⟩
  | joining =>
    cases hf : s.futures with
    | nil => exact ⟨.joinNone, rfl, by simp [step, hp, hf]⟩
    | cons t futures => exact task_enabled receiver hf (.inl hp)
  | stopping =>
    cases hf : s.futures with
    | nil => exact ⟨.joinNone, rfl, by simp [step, hp, hf]⟩
    | cons t futures => exact task_enabled receiver hf (.inr hp)
  | returned result => exact absurd hp (hreturned result)
  | panicked => exact absurd hp hpanicked

end TpuTools.Generator
