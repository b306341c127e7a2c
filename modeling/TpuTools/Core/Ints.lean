import Mathlib.Data.Nat.ModEq

/-!
# Unsigned machine words as naturals

Values of `u64` and (on 64-bit targets) `usize` are naturals below `2 ^ 64`, values of
`u32` below `2 ^ 32`. What happens when a result does not fit depends on the build: with
overflow checks (`checks = true`) it panics, without them it wraps.
-/
namespace TpuTools.Ints

/-- `u64::MAX`, and `usize::MAX` on 64-bit targets. -/
def U64_MAX : Nat := 2 ^ 64 - 1

/-- `a + b`; `none` is the overflow panic. -/
def addU64 (checks : Bool) (a b : Nat) : Option Nat :=
  if a + b < 2 ^ 64 then some (a + b) else if checks then none else some ((a + b) % 2 ^ 64)

/-- `a - b` -/
def subU64 (checks : Bool) (a b : Nat) : Option Nat :=
  if b ≤ a then some (a - b) else if checks then none else some ((a + 2 ^ 64 - b) % 2 ^ 64)

/-- `a * b` -/
def mulU64 (checks : Bool) (a b : Nat) : Option Nat :=
  if a * b < 2 ^ 64 then some (a * b) else if checks then none else some (a * b % 2 ^ 64)

/-- `a * b` and then `c + …`, on `u32` -/
def mulAddU32 (checks : Bool) (c a b : Nat) : Option Nat :=
  if c + a * b < 2 ^ 32 then some (c + a * b)
  else if checks then none else some ((c + a * b) % 2 ^ 32)

/-- `a.saturating_add(b)` -/
def saturatingAdd (a b : Nat) : Nat := min (a + b) U64_MAX

/-- `a.saturating_mul(b)` -/
def saturatingMul (a b : Nat) : Nat := min (a * b) U64_MAX

/-- `a.wrapping_add(b)` -/
def wrappingAdd (a b : Nat) : Nat := (a + b) % 2 ^ 64

theorem addU64_of_lt {a b : Nat} (checks : Bool) (h : a + b < 2 ^ 64) :
    addU64 checks a b = some (a + b) := if_pos h

theorem subU64_of_le {a b : Nat} (checks : Bool) (h : b ≤ a) :
    subU64 checks a b = some (a - b) := if_pos h

theorem mulU64_of_lt {a b : Nat} (checks : Bool) (h : a * b < 2 ^ 64) :
    mulU64 checks a b = some (a * b) := if_pos h

@[simp] theorem addU64_wrap (a b : Nat) : addU64 false a b = some ((a + b) % 2 ^ 64) := by
  unfold addU64
  split
  · rename_i h; rw [Nat.mod_eq_of_lt h]
  · rfl

@[simp] theorem mulU64_wrap (a b : Nat) : mulU64 false a b = some (a * b % 2 ^ 64) := by
  unfold mulU64
  split
  · rename_i h; rw [Nat.mod_eq_of_lt h]
  · rfl

/-- Whatever the build, a sum that is returned is the exact one modulo `2 ^ 64`. -/
theorem addU64_modEq {checks : Bool} {a b c : Nat} (h : addU64 checks a b = some c) :
    c ≡ a + b [MOD 2 ^ 64] ∧ c < 2 ^ 64 := by
  unfold addU64 at h
  split at h
  · rename_i hlt
    cases h; exact ⟨rfl, hlt⟩
  · split at h
    · cases h
    · cases h; exact ⟨Nat.mod_modEq _ _, Nat.mod_lt _ (by decide)⟩

theorem saturatingAdd_of_lt {a b : Nat} (h : a + b < 2 ^ 64) : saturatingAdd a b = a + b := by
  unfold saturatingAdd U64_MAX; omega

end TpuTools.Ints
