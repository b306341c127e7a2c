import TpuTools.Core.Rounding
import TpuTools.L2Accounts.ParseBalance

/-!
# How exact a balance is (`tools-common/src/cli.rs`)

SOL are read as a double, multiplied by a double and truncated. Both roundings together move less
than one lamport as long as there are no more than `2 ^ 51` of them; the truncation then loses at
most one, and it does so for `1.001SOL`. Whole SOL lose nothing.

* `lamports_error`: the two roundings.
* **`sol_near`**: the result beside the exact amount.
-/
namespace TpuTools.Cli
open Floats Accounts

/-- The lamports before the truncation. -/
def lamportsOf (q : ℚ) : ℚ := rounded (rounded q * LAMPORTS_PER_SOL)

theorem lamports_error {q : ℚ} (h0 : 0 ≤ q) (hle : q * LAMPORTS_PER_SOL ≤ 2 ^ 51) :
    |lamportsOf q - q * LAMPORTS_PER_SOL| < 1 := by
  have hr0 := rounded_nonneg h0
  have hp0 : 0 ≤ rounded q * LAMPORTS_PER_SOL := mul_nonneg hr0 (by norm_num [LAMPORTS_PER_SOL])
  obtain ⟨hlow, hhigh⟩ := abs_le.1 (rounded_relative h0)
  obtain ⟨hlow', hhigh'⟩ := abs_le.1 (rounded_relative hp0)
  have htiny := tiny_le
  have hpos := tiny_pos
  unfold lamportsOf
  simp only [LAMPORTS_PER_SOL] at *
  push_cast at *
  rw [abs_lt]
  constructor <;> linarith

/-- What is multiplied and cast, as one expression. -/
theorem mul_lamports {q : ℚ} (h0 : 0 ≤ q) (hle : q * LAMPORTS_PER_SOL ≤ 2 ^ 51) :
    mul (toDouble (.finite q)) (.finite LAMPORTS_PER_SOL) = .finite (lamportsOf q) := by
  have hq : q ≤ 2 ^ 51 := by
    refine le_trans (le_mul_of_one_le_right h0 ?_) hle
    norm_num [LAMPORTS_PER_SOL]
  have herror := (abs_le.1 (rounded_relative h0)).2
  have htiny := tiny_le
  show mul (Floats.round q) _ = _
  rw [round_of_small h0 (hq.trans (by norm_num))]
  refine round_of_small (mul_nonneg (rounded_nonneg h0) (by norm_num [LAMPORTS_PER_SOL])) ?_
  simp only [LAMPORTS_PER_SOL] at *
  push_cast at *
  linarith

/-- Whole SOL are multiplied without an error. -/
theorem lamportsOf_nat {n : Nat} (h : n * LAMPORTS_PER_SOL < 2 ^ 53) :
    lamportsOf n = (n * LAMPORTS_PER_SOL : Nat) := by
  have hn : n < 2 ^ 53 := by
    have := Nat.le_mul_of_pos_right n (show 0 < LAMPORTS_PER_SOL by decide)
    omega
  unfold lamportsOf
  rw [rounded_of_nat hn, ← Nat.cast_mul, rounded_of_nat h]

/-- The cast of a number in range. -/
theorem toUnsigned_floor {x : ℚ} (h0 : 0 ≤ x) (h : x < 2 ^ 64) :
    (toUnsigned 64 (.finite x) : ℤ) = ⌊x⌋ := by
  have hfloor : 0 ≤ ⌊x⌋ := Int.floor_nonneg.2 h0
  have hlt : ⌊x⌋ < 2 ^ 64 := Int.floor_lt.2 (by exact_mod_cast h)
  show ((min ⌊x⌋.toNat (2 ^ 64 - 1) : Nat) : ℤ) = ⌊x⌋
  omega

variable {toUppercase : List Char → List Char} {s : List Char} {a : ℚ}

/-- **At most one lamport beside.** Up to `2 ^ 51` lamports, given as SOL or without a suffix, are
read as the truncated exact amount, as one lamport more or as one less; whole SOL are exact. -/
theorem sol_near (hsol : (balanceText toUppercase s).1 = .sol)
    (ha : amount toUppercase s = some (.finite a)) (h0 : 0 ≤ a) (hle : a ≤ 2 ^ 51) :
    ∃ v : Nat, parseBalance toUppercase s = .ok v ∧ ⌊a⌋ ≤ v + 1 ∧ v ≤ ⌊a⌋ + 1 ∧
      ∀ n : Nat, a = (n * LAMPORTS_PER_SOL : Nat) → v = n * LAMPORTS_PER_SOL := by
  obtain ⟨x, hx, hp⟩ := parseBalance_of_amount hsol ha
  cases x with
  | nan | infinity => cases hx
  | finite q =>
    have hq : q * LAMPORTS_PER_SOL = a := Extended.finite.inj hx
    have hpos : (0 : ℚ) < LAMPORTS_PER_SOL := by norm_num [LAMPORTS_PER_SOL]
    have hq0 : 0 ≤ q := nonneg_of_mul_nonneg_left (hq ▸ h0) hpos
    rw [mul_lamports hq0 (hq ▸ hle)] at hp
    obtain ⟨hlow, hhigh⟩ := abs_lt.1 (lamports_error hq0 (hq ▸ hle))
    rw [hq] at hlow hhigh
    have hres0 : 0 ≤ lamportsOf q :=
      rounded_nonneg (mul_nonneg (rounded_nonneg hq0) hpos.le)
    have hv := toUnsigned_floor hres0 (by linarith)
    refine ⟨_, hp, ?_, ?_, ?_⟩
    · rw [hv]
      have hle' : ⌊a⌋ - 1 ≤ ⌊lamportsOf q⌋ := by
        rw [Int.le_floor]
        push_cast
        linarith [Int.floor_le a]
      omega
    · rw [hv]
      have hlt : ⌊lamportsOf q⌋ < ⌊a⌋ + 2 := by
        rw [Int.floor_lt]
        push_cast
        linarith [Int.lt_floor_add_one a]
      omega
    · intro n hn
      have hqn : q = n := by
        have hmul : q * LAMPORTS_PER_SOL = n * LAMPORTS_PER_SOL := by
          rw [hq, hn, Nat.cast_mul]
        exact mul_right_cancel₀ hpos.ne' hmul
      have hbound : n * LAMPORTS_PER_SOL < 2 ^ 53 := by
        have hcast : ((n * LAMPORTS_PER_SOL : Nat) : ℚ) ≤ (2 ^ 51 : Nat) := by
          rw [← hn]
          exact_mod_cast hle
        have := Nat.cast_le.1 hcast
        omega
      have hexact : ((toUnsigned 64 (.finite (lamportsOf q)) : Nat) : ℤ) =
          ((n * LAMPORTS_PER_SOL : Nat) : ℤ) := by
        rw [hv, hqn, lamportsOf_nat hbound, Int.floor_natCast]
      exact_mod_cast hexact

/-- One lamport is lost here. -/
theorem sol_near_short : ∃ v : Nat, parseBalance asciiUppercase "1.001SOL".toList = .ok v ∧
    ⌊(1001000000 : ℚ)⌋ ≤ v + 1 ∧ v ≤ ⌊(1001000000 : ℚ)⌋ + 1 ∧ v = 1000999999 := by
  have ha : amount asciiUppercase "1.001SOL".toList = some (.finite 1001000000) := by
    decide +kernel
  obtain ⟨v, hv, hlow, hhigh, -⟩ := sol_near (by decide +kernel) ha (by norm_num) (by norm_num)
  have hshort : parseBalance asciiUppercase "1.001SOL".toList = .ok 1000999999 := by
    decide +kernel
  rw [hshort, Except.ok.injEq] at hv
  exact ⟨v, by rw [hshort, hv], hlow, hhigh, hv.symm⟩

end TpuTools.Cli
