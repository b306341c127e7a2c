import Mathlib.Algebra.Order.Field.Power
import TpuTools.Core.Floats

/-!
# What rounding to a double does to a number

* `rounded_mono`: it keeps the order, also from one binade to another.
* `rounded_of_nat`: integers of up to 53 bits are doubles.
* `rounded_error`: otherwise it moves a number by half a last place at most, which is
  `2 ^ -53` of it or too little to count.
-/
namespace TpuTools.Floats

/-- `a / b`; a zero counts as positive. -/
def div : Extended → Extended → Extended
  | .nan, _ | _, .nan => .nan
  | .infinity _, .infinity _ => .nan
  | .infinity s, .finite q => .infinity (s != decide (q < 0))
  | .finite _, .infinity _ => .finite 0
  | .finite p, .finite q =>
    if q = 0 then if p = 0 then .nan else .infinity (decide (p < 0)) else round (p / q)

theorem div_finite {p q : ℚ} (h : q ≠ 0) : div (.finite p) (.finite q) = round (p / q) := if_neg h

/-! ## To an integer -/

theorem floor_le_roundHalfEven (q : ℚ) : ⌊q⌋ ≤ roundHalfEven q ∧ roundHalfEven q ≤ ⌊q⌋ + 1 := by
  unfold roundHalfEven
  simp only
  split
  · omega
  · split
    · omega
    · split <;> omega

theorem roundHalfEven_error (q : ℚ) : |(roundHalfEven q : ℚ) - q| ≤ 1 / 2 := by
  have hle := Int.floor_le q
  have hlt := Int.lt_floor_add_one q
  rw [abs_le]
  unfold roundHalfEven
  simp only
  split
  · constructor <;> linarith
  · split
    · push_cast
      constructor <;> linarith
    · split
      · constructor <;> linarith
      · push_cast
        constructor <;> linarith

theorem roundHalfEven_intCast (n : ℤ) : roundHalfEven (n : ℚ) = n := by
  unfold roundHalfEven
  simp only [Int.floor_intCast, sub_self]
  rw [if_pos (by norm_num)]

theorem roundHalfEven_mono {q p : ℚ} (h : q ≤ p) : roundHalfEven q ≤ roundHalfEven p := by
  have hq := floor_le_roundHalfEven q
  have hp := floor_le_roundHalfEven p
  rcases lt_or_eq_of_le (Int.floor_le_floor h) with hlt | heq
  · omega
  · -- both between `n` and `n + 1`
    unfold roundHalfEven at hp ⊢
    simp only [heq] at hp ⊢
    by_cases hbelow : q - ⌊p⌋ < 1 / 2
    · rw [if_pos hbelow]
      exact hp.1
    · have hbelow' : ¬ p - ⌊p⌋ < 1 / 2 := by linarith
      rw [if_neg hbelow, if_neg hbelow']
      by_cases habove : 1 / 2 < q - ⌊p⌋
      · have habove' : 1 / 2 < p - ⌊p⌋ := by linarith
        rw [if_pos habove, if_pos habove']
      · rw [if_neg habove]
        split_ifs <;> omega

/-! ## To the last place -/

/-- The nearest double, of any size. -/
def rounded (q : ℚ) : ℚ := roundHalfEven (q / (2 : ℚ) ^ lastPlace q) * (2 : ℚ) ^ lastPlace q

theorem round_of_lt {q : ℚ} (h : |rounded q| < 2 ^ 1024) : round q = .finite (rounded q) :=
  if_pos h

theorem lastPlace_pow_pos (q : ℚ) : (0 : ℚ) < (2 : ℚ) ^ lastPlace q := zpow_pos (by norm_num) _

theorem rounded_nonneg {q : ℚ} (h : 0 ≤ q) : 0 ≤ rounded q := by
  have hscaled := roundHalfEven_mono (div_nonneg h (lastPlace_pow_pos q).le)
  rw [show (0 : ℚ) = ((0 : ℤ) : ℚ) from rfl, roundHalfEven_intCast] at hscaled
  exact mul_nonneg (by exact_mod_cast hscaled) (lastPlace_pow_pos q).le

/-- What is a multiple of the last place bounds the rounded number when it bounds the number. -/
theorem rounded_le {q t : ℚ} (n : ℤ) (ht : t = n * (2 : ℚ) ^ lastPlace q) (h : q ≤ t) :
    rounded q ≤ t := by
  have hpos := lastPlace_pow_pos q
  have hscaled : roundHalfEven (q / (2 : ℚ) ^ lastPlace q) ≤ n := by
    rw [← roundHalfEven_intCast n]
    exact roundHalfEven_mono ((div_le_iff₀ hpos).2 (ht ▸ h))
  rw [ht]
  exact mul_le_mul_of_nonneg_right (by exact_mod_cast hscaled) hpos.le

theorem le_rounded {q t : ℚ} (n : ℤ) (ht : t = n * (2 : ℚ) ^ lastPlace q) (h : t ≤ q) :
    t ≤ rounded q := by
  have hpos := lastPlace_pow_pos q
  have hscaled : n ≤ roundHalfEven (q / (2 : ℚ) ^ lastPlace q) := by
    rw [← roundHalfEven_intCast n]
    exact roundHalfEven_mono ((le_div_iff₀ hpos).2 (ht ▸ h))
  rw [ht]
  exact mul_le_mul_of_nonneg_right (by exact_mod_cast hscaled) hpos.le

/-- A multiple of the last place is a double. -/
theorem rounded_eq {q : ℚ} (n : ℤ) (h : q = n * (2 : ℚ) ^ lastPlace q) : rounded q = q :=
  le_antisymm (rounded_le n h (le_refl q)) (le_rounded n h (le_refl q))

/-- A power of two is a multiple of every last place that is not above it. -/
theorem zpow_eq_mul {e k : ℤ} (h : k ≤ e) :
    ∃ n : ℤ, (2 : ℚ) ^ e = n * (2 : ℚ) ^ k := by
  obtain ⟨d, rfl⟩ := Int.le.dest h
  refine ⟨2 ^ d, ?_⟩
  rw [zpow_add₀ (by norm_num), zpow_natCast]
  push_cast
  ring

theorem rounded_mono {q p : ℚ} (hq : 0 ≤ q) (h : q ≤ p) : rounded q ≤ rounded p := by
  rcases hq.eq_or_lt with rfl | hq
  · rw [rounded_eq 0 (by norm_num)]
    exact rounded_nonneg h
  have hp : 0 < p := hq.trans_le h
  have hlog : Int.log 2 q ≤ Int.log 2 p := Int.log_mono_right hq h
  have hplace : lastPlace q = max (Int.log 2 q - 52) (-1074) := by
    rw [lastPlace, abs_of_pos hq]
  have hplace' : lastPlace p = max (Int.log 2 p - 52) (-1074) := by
    rw [lastPlace, abs_of_pos hp]
  by_cases hsame : lastPlace q = lastPlace p
  · unfold rounded
    rw [hsame]
    have hpos := lastPlace_pow_pos p
    refine mul_le_mul_of_nonneg_right ?_ hpos.le
    exact_mod_cast roundHalfEven_mono (div_le_div_of_nonneg_right h hpos.le)
  · -- a power of two lies between them, and between what they are rounded to
    have hbelow : Int.log 2 q + 1 ≤ Int.log 2 p := by omega
    have hqt : q ≤ (2 : ℚ) ^ Int.log 2 p := by
      have hlt : q < (2 : ℚ) ^ (Int.log 2 q + 1) := by
        exact_mod_cast Int.lt_zpow_succ_log_self (by norm_num : 1 < 2) q
      exact hlt.le.trans (zpow_le_zpow_right₀ (by norm_num) hbelow)
    have htp : (2 : ℚ) ^ Int.log 2 p ≤ p := by
      exact_mod_cast Int.zpow_log_le_self (by norm_num : 1 < 2) hp
    obtain ⟨n, hn⟩ := zpow_eq_mul (show lastPlace q ≤ Int.log 2 p by omega)
    obtain ⟨m, hm⟩ := zpow_eq_mul (show lastPlace p ≤ Int.log 2 p by omega)
    exact (rounded_le n hn hqt).trans (le_rounded m hm htp)

/-- Integers of up to 53 bits are doubles. -/
theorem rounded_of_nat {n : Nat} (h : n < 2 ^ 53) : rounded n = n := by
  have hplace : lastPlace n ≤ 0 := by
    unfold lastPlace
    rw [abs_of_nonneg (Nat.cast_nonneg n), Int.log_natCast]
    have hlog : Nat.log 2 n ≤ 52 := by
      have := Nat.log_lt_of_lt_pow' (b := 2) (x := 53) (by norm_num) h
      omega
    omega
  obtain ⟨m, hm⟩ := zpow_eq_mul hplace
  rw [zpow_zero] at hm
  refine rounded_eq (n * m) ?_
  rw [Int.cast_mul, mul_assoc, ← hm, mul_one, Int.cast_natCast]

theorem rounded_error (q : ℚ) : |rounded q - q| ≤ (2 : ℚ) ^ lastPlace q / 2 := by
  have hpos := lastPlace_pow_pos q
  have hscaled := roundHalfEven_error (q / (2 : ℚ) ^ lastPlace q)
  have hsplit : rounded q - q = (roundHalfEven (q / (2 : ℚ) ^ lastPlace q) -
      q / (2 : ℚ) ^ lastPlace q) * (2 : ℚ) ^ lastPlace q := by
    unfold rounded
    rw [sub_mul, div_mul_cancel₀ _ hpos.ne']
  rw [hsplit, abs_mul, abs_of_pos hpos]
  calc _ ≤ 1 / 2 * (2 : ℚ) ^ lastPlace q := mul_le_mul_of_nonneg_right hscaled hpos.le
    _ = (2 : ℚ) ^ lastPlace q / 2 := by ring

/-- Half of the last place of a subnormal number. -/
def tiny : ℚ := (2 : ℚ) ^ (-1074 : ℤ) / 2

theorem tiny_pos : 0 < tiny := half_pos (zpow_pos (by norm_num) _)

theorem tiny_le : tiny ≤ 1 / 2 ^ 100 := by
  have hpos : (0 : ℚ) < (2 : ℚ) ^ (-1074 : ℤ) := zpow_pos (by norm_num) _
  calc tiny ≤ (2 : ℚ) ^ (-1074 : ℤ) := half_le_self hpos.le
    _ ≤ (2 : ℚ) ^ (-100 : ℤ) := zpow_le_zpow_right₀ (by norm_num) (by norm_num)
    _ = 1 / 2 ^ 100 := by norm_num

theorem rounded_relative {q : ℚ} (h : 0 ≤ q) : |rounded q - q| ≤ q / 2 ^ 53 + tiny := by
  rcases h.eq_or_lt with rfl | hq
  · rw [rounded_eq 0 (by norm_num)]
    norm_num
    exact tiny_pos.le
  have herror := rounded_error q
  have hlog : (2 : ℚ) ^ Int.log 2 q ≤ q := by
    exact_mod_cast Int.zpow_log_le_self (by norm_num : 1 < 2) hq
  rw [lastPlace, abs_of_pos hq] at herror
  rcases le_total (Int.log 2 q - 52) (-1074) with hsub | hnormal
  · rw [max_eq_right hsub] at herror
    have hpart : 0 ≤ q / 2 ^ 53 := div_nonneg h (by norm_num)
    exact herror.trans (le_add_of_nonneg_left hpart)
  · rw [max_eq_left hnormal, zpow_sub₀ (by norm_num)] at herror
    have hscale : (2 : ℚ) ^ (52 : ℤ) = 2 ^ 52 := by norm_cast
    have hpart : (2 : ℚ) ^ Int.log 2 q / 2 ^ (52 : ℤ) / 2 ≤ q / 2 ^ 53 := by
      rw [hscale]
      linarith
    exact (herror.trans hpart).trans (le_add_of_nonneg_right tiny_pos.le)

/-- Far below the largest double nothing overflows. -/
theorem round_of_small {q : ℚ} (h0 : 0 ≤ q) (h : q ≤ 2 ^ 65) : round q = .finite (rounded q) := by
  apply round_of_lt
  have herror := (abs_le.1 (rounded_relative h0)).2
  have htiny := tiny_le
  have hlt : rounded q < 2 ^ 66 := by linarith
  rw [abs_of_nonneg (rounded_nonneg h0)]
  exact hlt.trans_le (pow_le_pow_right₀ (by norm_num) (by norm_num))

end TpuTools.Floats
