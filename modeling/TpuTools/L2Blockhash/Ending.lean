import TpuTools.L2Blockhash.BlockhashUpdater

/-!
# How the blockhash updater ends (`tools-common/src/blockhash_updater.rs`)

The updater has no token. It sees that nobody reads the channel at the head of its loop or when
it sends, so it ends a round at the latest after the last receiver is gone.

* `own_lowers`, `own_enabled`: without receivers each of its steps brings it closer to the end,
  and until it has returned there is one.
-/
namespace TpuTools.Blockhash

/-- The steps `run` takes itself, with the answers it waits for. -/
def Label.own : Label → Bool
  | .advance _ | .dropReceivers => false
  | _ => true

/-- The turns that are left when there is no receiver. -/
def Phase.work : Phase → Nat
  | .fetching => 6
  | .fetched _ => 5
  | .sending _ => 4
  | .checking => 3
  | .starting | .warning => 2
  | .looping => 1
  | .returned _ => 0

theorem Phase.work_le (phase : Phase) : phase.work ≤ 6 := by
  cases phase <;> simp only [Phase.work] <;> omega

variable {config : BlockhashUpdaterConfig} {s s' : BlockhashUpdater} {l : Label}

theorem own_lowers (h : step config s l = some s') (hl : l.own = true)
    (hr : s.channel.receivers = false) : s'.phase.work < s.phase.work := by
  cases step_move h with
  | advance | dropReceivers => cases hl
  | fetch _ hr' | sent _ hr' => cases hr.symm.trans hr'
  | start hp | closed hp | answer hp | changed hp | same hp | failed hp | broken hp | stuck hp
  | fresh hp | warned hp =>
    simp only [hp, Phase.work, BlockhashUpdater.return]
    omega

theorem own_enabled (hr : s.channel.receivers = false) (hne : ∀ result, s.phase ≠ .returned result) :
    ∃ l s', l.own = true ∧ step config s l = some s' := by
  suffices h : ∃ l, l.own = true ∧ (step config s l).isSome = true by
    obtain ⟨l, hl, hs⟩ := h
    obtain ⟨s', hs⟩ := Option.isSome_iff_exists.1 hs
    exact ⟨l, s', hl, hs⟩
  cases hp : s.phase with
  | starting => exact ⟨.start, rfl, by simp [step, hp]⟩
  | looping => exact ⟨.isClosed, rfl, by simp [step, hp, hr]⟩
  | fetching => exact ⟨.answer none, rfl, by simp [step, hp]⟩
  | fetched answer =>
    refine ⟨.compare, rfl, ?_⟩
    cases answer with
    | none => simp [step, hp]
    | some newBlockhash =>
      simp only [step, hp]
      split <;> rfl
  | sending newBlockhash => exact ⟨.send, rfl, by simp [step, hp, hr]⟩
  | checking =>
    refine ⟨.check, rfl, ?_⟩
    simp only [step, hp]
    split <;> rfl
  | warning => exact ⟨.warn, rfl, by simp [step, hp]⟩
  | returned result => exact absurd hp (hne result)

/-- Nobody comes back. -/
theorem receivers_step (h : step config s l = some s') (hr : s.channel.receivers = false) :
    s'.channel.receivers = false := by
  cases step_move h with
  | dropReceivers => rfl
  | sent _ hr' => cases hr.symm.trans hr'
  | _ => exact hr

end TpuTools.Blockhash
