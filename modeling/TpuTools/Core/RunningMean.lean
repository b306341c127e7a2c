import Mathlib.Algebra.BigOperators.Group.List.Basic
import Mathlib.Algebra.Ring.Nat

/-!
# The floored running mean

`h` is a history of counts; its mean is `h.sum / h.length`, rounded down. An adaptive
scheme that may add at most one to its mean in each round cannot lift it again: the
remainder grows by one, but so does the number of rounds.

* `mean_snoc_le`: a round of at most the mean plus one does not raise the mean.
* `Reaches.snoc`: rounds of at least `r - 1` keep a mean of at least `r - 1` (`Reaches r`).
-/
namespace TpuTools.RunningMean

/-- The mean of the rounds so far, rounded down. -/
def mean (h : List Nat) : Nat := h.sum / h.length

theorem mean_snoc_le {h : List Nat} {n : Nat} (hne : h ≠ []) (hn : n ≤ mean h + 1) :
    mean (h ++ [n]) ≤ mean h := by
  have hpos : 0 < h.length := List.length_pos_iff.2 hne
  have hdiv : h.sum = h.length * mean h + h.sum % h.length := (Nat.div_add_mod _ _).symm
  have hmod : h.sum % h.length < h.length := Nat.mod_lt _ hpos
  simp only [mean, List.sum_append, List.sum_singleton, List.length_append, List.length_singleton]
  apply Nat.le_of_lt_succ
  rw [Nat.div_lt_iff_lt_mul (Nat.succ_pos _), Nat.succ_mul]
  change h.sum + n < mean h * (h.length + 1) + (h.length + 1)
  have hmul : mean h * (h.length + 1) = h.length * mean h + mean h := by
    rw [Nat.mul_succ, Nat.mul_comm]
  omega

/-- `r ≤ mean h + 1`, without the division: it also makes sense before the first round. -/
def Reaches (r : Nat) (h : List Nat) : Prop := (r - 1) * h.length ≤ h.sum

theorem reaches_iff {r : Nat} {h : List Nat} (hne : h ≠ []) : Reaches r h ↔ r ≤ mean h + 1 := by
  have hpos : 0 < h.length := List.length_pos_iff.2 hne
  unfold Reaches mean
  rw [← Nat.le_div_iff_mul_le hpos]
  exact Nat.sub_le_iff_le_add

theorem Reaches.snoc {r n : Nat} {h : List Nat} (hr : Reaches r h) (hn : r ≤ n + 1) :
    Reaches r (h ++ [n]) := by
  unfold Reaches at *
  simp only [List.sum_append, List.sum_singleton, List.length_append, List.length_singleton,
    Nat.mul_add, Nat.mul_one]
  omega

end TpuTools.RunningMean
