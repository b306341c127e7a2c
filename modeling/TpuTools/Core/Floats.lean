import Mathlib.Data.Int.Log
import Mathlib.Data.Rat.Floor
import Mathlib.Tactic.Linarith
import TpuTools.Core.Decimal

/-!
# Floating-point numbers and their texts

A text denotes no number, an infinity or an exact rational (`denote`); `parse` rounds it to the
nearest double, ties to even. Doubles are those same values, so that the arithmetic is that of
the rationals with a rounding after it. The sign of a zero and the payload of a NaN are left
out.

* `denote_unsigned`: the texts of unsigned integers denote what they say.
* `round_notPos`, `mul_notPos`: rounding keeps the sign.
* `toUnsigned_lt`, `toUnsigned_of_notPos`: the cast to an unsigned integer saturates.
-/
namespace TpuTools.Floats

inductive Extended where
  | nan
  | infinity (negative : Bool)
  | finite (q : ℚ)
  deriving DecidableEq

/-! ## Texts -/

def stripSign : List Char → Bool × List Char
  | '-' :: cs => (true, cs)
  | '+' :: cs => (false, cs)
  | cs => (false, cs)

/-- What is before the first such character, and what is after it if there is one. -/
def cutAt (p : Char → Bool) : List Char → List Char × Option (List Char)
  | [] => ([], none)
  | c :: cs => if p c then ([], some cs) else (c :: (cutAt p cs).1, (cutAt p cs).2)

def digits (cs : List Char) : Option Nat :=
  if cs ≠ [] ∧ cs.all Char.isDigit = true then some (Nat.ofDigitChars 10 cs 0) else none

def exponent (cs : List Char) : Option Int :=
  (digits (stripSign cs).2).map fun n => if (stripSign cs).1 then -n else n

/-- Digits, with a point somewhere, and an exponent: `5`, `5.`, `.5`, `1.5E-3`. -/
def number (cs : List Char) : Option ℚ := do
  let (mantissa, mark) := cutAt (fun c => c == 'e' || c == 'E') cs
  let e ← match mark with
    | none => some 0
    | some ds => exponent ds
  let (whole, point) := cutAt (· == '.') mantissa
  let fraction := point.getD []
  let n ← digits (whole ++ fraction)
  pure (n * (10 : ℚ) ^ (e - fraction.length))

/-- What a text denotes; letters of either case. -/
def denote (cs : List Char) : Option Extended :=
  let (negative, text) := stripSign cs
  let word := text.map Char.toLower
  if word = "inf".toList ∨ word = "infinity".toList then some (.infinity negative)
  else if word = "nan".toList then some .nan
  else (number text).map fun q => .finite (if negative then -q else q)

/-! ## Rounding -/

/-- The nearest integer, the even one of two. -/
def roundHalfEven (q : ℚ) : ℤ :=
  let n := ⌊q⌋
  if q - n < 1 / 2 then n
  else if 1 / 2 < q - n then n + 1
  else if n % 2 = 0 then n else n + 1

/-- The exponent of the last place of 53 bits; subnormal numbers all have the same one. -/
def lastPlace (q : ℚ) : ℤ := max (Int.log 2 |q| - 52) (-1074)

/-- The nearest double. -/
def round (q : ℚ) : Extended :=
  let rounded : ℚ := roundHalfEven (q / (2 : ℚ) ^ lastPlace q) * (2 : ℚ) ^ lastPlace q
  if |rounded| < 2 ^ 1024 then .finite rounded else .infinity (decide (q < 0))

inductive ParseFloatError where
  | empty
  | invalid
  deriving DecidableEq, Repr

/-- The `Display` text. -/
def ParseFloatError.toText : ParseFloatError → String
  | .empty => "cannot parse float from empty string"
  | .invalid => "invalid float literal"

def toDouble : Extended → Extended
  | .finite q => round q
  | x => x

/-- `str::parse::<f64>()` -/
def parse (cs : List Char) : Except ParseFloatError Extended :=
  match denote cs with
  | some x => .ok (toDouble x)
  | none => .error (if cs = [] then .empty else .invalid)

/-! ## Arithmetic -/

/-- `a * b`; an infinity times zero is not a number. -/
def mul : Extended → Extended → Extended
  | .nan, _ | _, .nan => .nan
  | .infinity s, .infinity t => .infinity (s != t)
  | .infinity s, .finite q | .finite q, .infinity s =>
    if q = 0 then .nan else .infinity (s != decide (q < 0))
  | .finite p, .finite q => round (p * q)

/-- `x as uW`: truncates and saturates; what is no number becomes 0. -/
def toUnsigned (w : Nat) : Extended → Nat
  | .nan => 0
  | .infinity negative => if negative then 0 else 2 ^ w - 1
  | .finite q => min ⌊q⌋.toNat (2 ^ w - 1)

theorem toUnsigned_lt (w : Nat) (x : Extended) : toUnsigned w x < 2 ^ w := by
  have hpos := Nat.two_pow_pos w
  cases x with
  | nan => exact hpos
  | infinity negative =>
    show (if negative then 0 else 2 ^ w - 1) < 2 ^ w
    split
    · exact hpos
    · omega
  | finite q =>
    show min ⌊q⌋.toNat (2 ^ w - 1) < 2 ^ w
    omega

/-! ## The texts of integers -/

theorem cutAt_of_all {p : Char → Bool} : ∀ {cs : List Char}, (∀ c ∈ cs, p c = false) →
    cutAt p cs = (cs, none)
  | [], _ => rfl
  | c :: cs, h => by
    unfold cutAt
    rw [h c List.mem_cons_self, cutAt_of_all fun d hd => h d (List.mem_cons_of_mem _ hd)]
    rfl

theorem number_digits {cs : List Char} {n : Nat} (h : digits cs = some n) :
    number cs = some (n : ℚ) := by
  have hall : ∀ c ∈ cs, c.isDigit = true := by
    unfold digits at h
    exact List.all_eq_true.1 (Option.ite_none_right_eq_some.1 h).1.2
  have hmark : cutAt (fun c => c == 'e' || c == 'E') cs = (cs, none) := by
    apply cutAt_of_all
    intro c hc
    have hd := hall c hc
    rw [Bool.or_eq_false_iff, beq_eq_false_iff_ne, beq_eq_false_iff_ne]
    refine ⟨?_, ?_⟩ <;> intro he <;> subst he <;> revert hd <;> decide
  have hpoint : cutAt (fun c => c == '.') cs = (cs, none) := by
    apply cutAt_of_all
    intro c hc
    have hd := hall c hc
    rw [beq_eq_false_iff_ne]
    intro he
    subst he
    revert hd
    decide
  unfold number
  simp [hmark, hpoint, h]

theorem toLower_of_isDigit {c : Char} (h : c.isDigit = true) : c.toLower = c := by
  have hle := (Char.isDigit_iff_toNat.1 h).2
  unfold Char.toLower
  apply dif_neg
  intro hu
  have hge : 'A'.toNat ≤ c.toNat := UInt32.le_iff_toNat_le.1 hu.1
  have hlt : '9'.toNat < 'A'.toNat := by decide
  omega

/-- A text that starts with a digit is none of the words. -/
theorem map_toLower_ne {ds : List Char} (word : List Char) (hne : ds ≠ [])
    (h : ds.all Char.isDigit = true) (hword : word.head?.any Char.isDigit = false) : ds.map Char.toLower ≠ word := by
  intro he
  cases ds with
  | nil => exact hne rfl
  | cons c cs =>
    have hc : c.isDigit = true := List.all_eq_true.1 h c List.mem_cons_self
    rw [← he, List.map_cons, toLower_of_isDigit hc, List.head?_cons, Option.any_some, hc] at hword
    cases hword

theorem stripSign_of_isDigit {cs : List Char} (hne : Decimal.stripPlus cs ≠ [])
    (h : (Decimal.stripPlus cs).all Char.isDigit = true) :
    stripSign cs = (false, Decimal.stripPlus cs) := by
  unfold Decimal.stripPlus stripSign at *
  split at hne
  · rfl
  · rename_i hplus
    split
    · simp at h
    · exact absurd rfl (hplus _)
    · rfl

/-- The text of an unsigned integer denotes it. -/
theorem denote_unsigned {w n : Nat} {cs : List Char} (h : Decimal.parseUnsigned w cs = some n) :
    denote cs = some (.finite n) := by
  unfold Decimal.parseUnsigned at h
  obtain ⟨⟨hne, hall, -⟩, he⟩ := Option.ite_none_right_eq_some.1 h
  have hdigits : digits (Decimal.stripPlus cs) = some n := by
    unfold digits
    rw [if_pos ⟨hne, hall⟩, he]
  have hinf := map_toLower_ne "inf".toList hne hall (by decide)
  have hinfinity := map_toLower_ne "infinity".toList hne hall (by decide)
  have hnan := map_toLower_ne "nan".toList hne hall (by decide)
  unfold denote
  rw [stripSign_of_isDigit hne hall]
  simp only [hinf, hinfinity, hnan, or_self, if_false, number_digits hdigits, Option.map_some]
  rfl

/-! ## Signs -/

/-- Not above zero, or not a number. -/
def NotPos : Extended → Prop
  | .nan => True
  | .infinity negative => negative = true
  | .finite q => q ≤ 0

theorem roundHalfEven_nonpos {q : ℚ} (h : q ≤ 0) : roundHalfEven q ≤ 0 := by
  have hfloor : ⌊q⌋ ≤ 0 := Int.floor_nonpos h
  unfold roundHalfEven
  -- rounded up only from below zero
  have hup : ¬ q - ⌊q⌋ < 1 / 2 → ⌊q⌋ + 1 ≤ 0 := by
    intro hhalf
    have hne : ⌊q⌋ ≠ 0 := by
      intro h0
      rw [h0] at hhalf
      apply hhalf
      push_cast
      linarith
    omega
  simp only
  split
  · exact hfloor
  · rename_i hhalf
    split
    · exact hup hhalf
    · split
      · exact hfloor
      · exact hup hhalf

/-- Rounding keeps the sign. -/
theorem round_notPos {q : ℚ} (h : q ≤ 0) : NotPos (round q) := by
  have hpow : (0 : ℚ) < (2 : ℚ) ^ lastPlace q := zpow_pos (by norm_num) _
  have hscaled : roundHalfEven (q / (2 : ℚ) ^ lastPlace q) ≤ 0 :=
    roundHalfEven_nonpos (div_nonpos_of_nonpos_of_nonneg h hpow.le)
  unfold round
  simp only
  split
  · show _ * _ ≤ (0 : ℚ)
    exact mul_nonpos_of_nonpos_of_nonneg (by exact_mod_cast hscaled) hpow.le
  · rename_i hbig
    show decide (q < 0) = true
    rw [decide_eq_true_iff]
    refine lt_of_le_of_ne h ?_
    intro h0
    apply hbig
    subst h0
    norm_num [roundHalfEven]

theorem toDouble_notPos {x : Extended} (hx : NotPos x) : NotPos (toDouble x) := by
  cases x with
  | finite q => exact round_notPos hx
  | nan | infinity => exact hx

theorem mul_notPos {x : Extended} {p : ℚ} (hx : NotPos x) (hp : 0 < p) :
    NotPos (mul x (.finite p)) := by
  cases x with
  | nan => trivial
  | infinity negative =>
    have hn : negative = true := hx
    subst hn
    show NotPos (if p = 0 then .nan else .infinity (true != decide (p < 0)))
    rw [if_neg hp.ne', decide_eq_false hp.le.not_gt]
    rfl
  | finite q => exact round_notPos (mul_nonpos_of_nonpos_of_nonneg hx hp.le)

/-- The cast saturates below. -/
theorem toUnsigned_of_notPos (w : Nat) {x : Extended} (hx : NotPos x) : toUnsigned w x = 0 := by
  cases x with
  | nan => rfl
  | infinity negative =>
    have hn : negative = true := hx
    subst hn
    rfl
  | finite q =>
    have hfloor : ⌊q⌋ ≤ 0 := Int.floor_nonpos hx
    show min ⌊q⌋.toNat (2 ^ w - 1) = 0
    rw [Int.toNat_of_nonpos hfloor, Nat.zero_min]

end TpuTools.Floats
