import TpuTools.Core.LTS

/-!
# Ranking functions

A set of steps in which every step lowers a natural number cannot go on forever, and as long as
one of them is enabled away from the goal, a run of them that cannot go on has reached it.

* `Ranking.length_le`: how long such a run can be.
* `Ranking.maximal`: where it ends.
* `Ranking.reaches`: there is one that ends there.
* `Progress.count_le`: the same with other steps in between, which do not raise the number.
-/
namespace TpuTools

variable {S L : Type}

/-- From states with `Q`, each step lowers the rank and keeps `Q`, and off the goal there is
one. -/
structure Ranking (M : LTS S L) (Q : S → Prop) (rank : S → Nat) (goal : S → Prop) : Prop where
  keeps : ∀ s l s', Q s → M.step s l s' → Q s'
  lowers : ∀ s l s', Q s → M.step s l s' → rank s' < rank s
  enabled : ∀ s, Q s → ¬ goal s → ∃ l s', M.step s l s'

namespace Ranking

variable {M : LTS S L} {Q : S → Prop} {rank : S → Nat} {goal : S → Prop}

theorem run_keeps (hR : Ranking M Q rank goal) {s s' : S} {ls : List L} (hr : M.Run s ls s')
    (hq : Q s) : Q s' :=
  LTS.run_induct (fun s l s' hq hs => hR.keeps s l s' hq hs) hr hq

theorem length_le (hR : Ranking M Q rank goal) {s s' : S} {ls : List L} (hr : M.Run s ls s')
    (hq : Q s) : ls.length + rank s' ≤ rank s := by
  induction hr with
  | nil => exact Nat.le_of_eq (Nat.zero_add _)
  | @cons s s₁ s' l ls hs _ ih =>
    have hlt := hR.lowers s l s₁ hq hs
    have hrest := ih (hR.keeps s l s₁ hq hs)
    rw [List.length_cons]
    omega

theorem maximal (hR : Ranking M Q rank goal) {s s' : S} {ls : List L} (hr : M.Run s ls s')
    (hq : Q s) (hend : ∀ l t, ¬ M.step s' l t) : goal s' := by
  by_contra hg
  obtain ⟨l, t, hs⟩ := hR.enabled s' (hR.run_keeps hr hq) hg
  exact hend l t hs

theorem reaches (hR : Ranking M Q rank goal) {s : S} (hq : Q s) :
    ∃ ls s', M.Run s ls s' ∧ goal s' := by
  by_cases hg : goal s
  · exact ⟨[], s, .nil s, hg⟩
  · obtain ⟨l, t, hs⟩ := hR.enabled s hq hg
    have := hR.lowers s l t hq hs
    obtain ⟨ls, s', hr, hg'⟩ := reaches hR (hR.keeps s l t hq hs)
    exact ⟨l :: ls, s', .cons hs hr, hg'⟩
termination_by rank s

end Ranking

/-! ## Among other steps -/

/-- Finite runs, with the number of steps in them that meet `own`. -/
inductive Counted (M : LTS S L) (own : S → L → Prop) : S → Nat → S → Prop where
  | nil (s : S) : Counted M own s 0 s
  | own {s s₁ s' : S} {l : L} {n : Nat} :
      own s l → M.step s l s₁ → Counted M own s₁ n s' → Counted M own s (n + 1) s'
  | other {s s₁ s' : S} {l : L} {n : Nat} :
      ¬ own s l → M.step s l s₁ → Counted M own s₁ n s' → Counted M own s n s'

/-- From states with `Q`, every step keeps it, an own one lowers the rank, and no other raises
it; off the goal there is an own one. -/
structure Progress (M : LTS S L) (own : S → L → Prop) (Q : S → Prop) (rank : S → Nat)
    (goal : S → Prop) : Prop where
  keeps : ∀ s l s', Q s → M.step s l s' → Q s'
  lowers : ∀ s l s', Q s → own s l → M.step s l s' → rank s' < rank s
  others : ∀ s l s', Q s → ¬ own s l → M.step s l s' → rank s' ≤ rank s
  enabled : ∀ s, Q s → ¬ goal s → ∃ l s', own s l ∧ M.step s l s'

namespace Progress

variable {M : LTS S L} {own : S → L → Prop} {Q : S → Prop} {rank : S → Nat} {goal : S → Prop}

theorem counted_keeps (hP : Progress M own Q rank goal) {s s' : S} {n : Nat}
    (hc : Counted M own s n s') (hq : Q s) : Q s' := by
  induction hc with
  | nil => exact hq
  | own _ hs _ ih | other _ hs _ ih => exact ih (hP.keeps _ _ _ hq hs)

theorem count_le (hP : Progress M own Q rank goal) {s s' : S} {n : Nat}
    (hc : Counted M own s n s') (hq : Q s) : n + rank s' ≤ rank s := by
  induction hc with
  | nil => exact Nat.le_of_eq (Nat.zero_add _)
  | @own s s₁ s' l n ho hs _ ih =>
    have hlt := hP.lowers s l s₁ hq ho hs
    have hrest := ih (hP.keeps s l s₁ hq hs)
    omega
  | @other s s₁ s' l n ho hs _ ih =>
    have hle := hP.others s l s₁ hq ho hs
    have hrest := ih (hP.keeps s l s₁ hq hs)
    omega

/-- The own steps alone. -/
theorem ranking (hP : Progress M own Q rank goal) : Ranking (M.guard own) Q rank goal where
  keeps s l s' hq hs := hP.keeps s l s' hq hs.2
  lowers s l s' hq hs := hP.lowers s l s' hq hs.1 hs.2
  enabled := hP.enabled

end Progress

end TpuTools
