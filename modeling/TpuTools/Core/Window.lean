import Mathlib.Data.Nat.ModEq
import Mathlib.Data.Nat.Prime.Basic
import TpuTools.Core.Cyclic

/-!
# Every second place of a cycle

Who goes round a cycle of `L` places two at a time, from place 0 or 1 on, comes by every place
when `L` is odd, and by every second one when `L` is even. Any `window L` steps in a row are
one such round.

* `existsUnique_mod`: one of `w` numbers in a row has a given remainder.
* **`existsUnique_double`**: one of `window L` numbers in a row has its double, or the successor
  of its double, at a given place it can come by.
-/
namespace TpuTools.Cycle

theorem existsUnique_mod {w r : Nat} (hr : r < w) (g₀ : Nat) :
    ∃! g, (g₀ ≤ g ∧ g < g₀ + w) ∧ g % w = r := by
  have hsplit := Nat.div_add_mod g₀ w
  have hlt := Nat.mod_lt g₀ (Nat.zero_lt_of_lt hr)
  obtain ⟨g, hg, hmod⟩ : ∃ g, (g₀ ≤ g ∧ g < g₀ + w) ∧ g % w = r := by
    rcases Nat.lt_or_ge r (g₀ % w) with hbefore | hafter
    · refine ⟨w * (g₀ / w) + w + r, by omega, ?_⟩
      rw [← Nat.mul_succ, Nat.mul_add_mod, Nat.mod_eq_of_lt hr]
    · refine ⟨w * (g₀ / w) + r, by omega, ?_⟩
      rw [Nat.mul_add_mod, Nat.mod_eq_of_lt hr]
  refine ⟨g, ⟨hg, hmod⟩, ?_⟩
  rintro h ⟨hh, hmod'⟩
  have heq : h % w = g % w := hmod'.trans hmod.symm
  rcases Nat.le_total h g with hle | hle
  · exact mod_inj_of_lt hle (by omega) heq
  · exact (mod_inj_of_lt hle (by omega) heq.symm).symm

/-- A round of steps by two. -/
def window (L : Nat) : Nat := if L % 2 = 0 then L / 2 else L

theorem double_mod_even {m c : Nat} (hm : 0 < m) (hc : c < 2) (g : Nat) :
    (2 * g + c) % (2 * m) = 2 * (g % m) + c := by
  have hlt := Nat.mod_lt g hm
  have hsplit : 2 * g + c = 2 * m * (g / m) + (2 * (g % m) + c) := by
    have hg := Nat.div_add_mod g m
    rw [Nat.mul_assoc]
    omega
  rw [hsplit, Nat.mul_add_mod, Nat.mod_eq_of_lt (by omega)]

/-- Steps by two keep to their side of an even number of places. -/
theorem double_mod_parity {L c : Nat} (hL : 0 < L) (heven : L % 2 = 0) (hc : c < 2) (g : Nat) :
    (2 * g + c) % L % 2 = c := by
  have hhalf : 2 * (L / 2) = L := by omega
  have hmod := double_mod_even (show 0 < L / 2 by omega) hc g
  rw [hhalf] at hmod
  omega

theorem succ_mod_ne {L : Nat} (hL : 2 ≤ L) (g : Nat) : g % L ≠ (g + 1) % L := by
  intro heq
  have hsucc := mod_inj_of_lt (Nat.le_succ g) (by omega) heq
  omega

/-- With an odd number of places doubling loses nothing. -/
theorem double_mod_inj {L : Nat} (hodd : L % 2 = 1) (c : Nat) {g h : Nat} :
    (2 * g + c) % L = (2 * h + c) % L ↔ g % L = h % L := by
  constructor
  · intro heq
    have hdouble : 2 * g ≡ 2 * h [MOD L] := Nat.ModEq.add_right_cancel' c heq
    refine Nat.ModEq.cancel_left_of_coprime ?_ hdouble
    rw [Nat.gcd_comm]
    exact Nat.coprime_two_left.2 (Nat.odd_iff.2 hodd)
  · intro heq
    exact (Nat.ModEq.mul_left 2 heq).add_right c

/-- And every place is a double. -/
theorem exists_double {L c q : Nat} (hodd : L % 2 = 1) (hc : c < 2) (hq : q < L) :
    ∃ h, (2 * h + c) % L = q := by
  by_cases hparity : q % 2 = c
  · refine ⟨(q - c) / 2, ?_⟩
    rw [show 2 * ((q - c) / 2) + c = q by omega, Nat.mod_eq_of_lt hq]
  · refine ⟨(q + L - c) / 2, ?_⟩
    rw [show 2 * ((q + L - c) / 2) + c = q + L by omega, Nat.add_mod_right, Nat.mod_eq_of_lt hq]

/-- **A round by two.** The places that are passed, from place `c` on, are passed once in each
window: all of them when `L` is odd, those of the parity of `c` when it is even. -/
theorem existsUnique_double {L c q : Nat} (hc : c < 2) (hq : q < L)
    (hpass : L % 2 = 1 ∨ q % 2 = c) (g₀ : Nat) :
    ∃! g, (g₀ ≤ g ∧ g < g₀ + window L) ∧ (2 * g + c) % L = q := by
  rcases Nat.mod_two_eq_zero_or_one L with heven | hodd
  · have hparity : q % 2 = c := by omega
    have hL : 2 * (L / 2) = L := by omega
    have hm : 0 < L / 2 := by omega
    have hiff : ∀ g, (2 * g + c) % L = q ↔ g % (L / 2) = q / 2 := by
      intro g
      have hmod := double_mod_even hm hc g
      rw [hL] at hmod
      rw [hmod]
      omega
    simp only [window, heven, if_true, hiff]
    exact existsUnique_mod (by omega) g₀
  · obtain ⟨h, hh⟩ := exists_double hodd hc hq
    have hiff : ∀ g, (2 * g + c) % L = q ↔ g % L = h % L := by
      intro g
      rw [← double_mod_inj hodd c, hh]
    have hne : ¬ L % 2 = 0 := by omega
    simp only [window, if_neg hne, hiff]
    exact existsUnique_mod (Nat.mod_lt h (Nat.zero_lt_of_lt hq)) g₀

end TpuTools.Cycle
