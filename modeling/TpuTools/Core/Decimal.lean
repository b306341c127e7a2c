import Mathlib.Data.Nat.Digits.Defs

/-!
# Decimal text of unsigned integers

Numbers are printed with Lean's own `toString` (`Nat.repr`, digits `Nat.toDigits 10`).
`parseUnsigned` is the reader of the standard library's integer parser for an unsigned
type of `w` bits: an optional leading `+`, then one or more ASCII digits (leading zeros
allowed), rejected when the value does not fit.

`parseUnsigned_toDigits` is the round trip. `readUnsigned` is the same reader with its errors,
digit by digit. Character lists stand for strings, so that splitting is `List.splitOn`.
-/
namespace TpuTools.Decimal

/-- The digits after an optional `+`. -/
def stripPlus : List Char → List Char
  | '+' :: cs => cs
  | cs => cs

/-- `str::parse::<uW>()` on the characters of the text. -/
def parseUnsigned (w : Nat) (cs : List Char) : Option Nat :=
  let ds := stripPlus cs
  if ds ≠ [] ∧ ds.all Char.isDigit = true ∧ Nat.ofDigitChars 10 ds 0 < 2 ^ w then
    some (Nat.ofDigitChars 10 ds 0)
  else none

theorem toDigits_all_isDigit (n : Nat) : (Nat.toDigits 10 n).all Char.isDigit = true := by
  rw [List.all_eq_true]
  intro c hc
  exact Nat.isDigit_of_mem_toDigits (by decide) (by decide) hc

theorem stripPlus_of_isDigit {cs : List Char} (h : cs.all Char.isDigit = true) :
    stripPlus cs = cs := by
  cases cs with
  | nil => rfl
  | cons c cs =>
    simp only [List.all_cons, Bool.and_eq_true] at h
    have hc : c ≠ '+' := by rintro rfl; exact absurd h.1 (by decide)
    unfold stripPlus
    split
    · rename_i heq; cases heq; exact absurd rfl hc
    · rfl

/-- **Round trip.** Every value of the type is read back from its decimal text. -/
theorem parseUnsigned_toDigits {w n : Nat} (h : n < 2 ^ w) :
    parseUnsigned w (Nat.toDigits 10 n) = some n := by
  have hd := toDigits_all_isDigit n
  have hne : Nat.toDigits 10 n ≠ [] := Nat.toDigits_ne_nil
  simp only [parseUnsigned, stripPlus_of_isDigit hd, Nat.ofDigitChars_ten_toDigits, hd, h, hne,
    ne_eq, not_false_eq_true, and_self, if_true]

/-- What is read fits the type. -/
theorem parseUnsigned_lt {w n : Nat} {cs : List Char} (h : parseUnsigned w cs = some n) :
    n < 2 ^ w := by
  unfold parseUnsigned at h
  obtain ⟨⟨-, -, hlt⟩, he⟩ := Option.ite_none_right_eq_some.1 h
  rw [← Option.some.inj he]
  exact hlt

theorem not_mem_toDigits {c : Char} (n : Nat) (h : c.isDigit = false) :
    c ∉ Nat.toDigits 10 n := by
  intro hc
  rw [Nat.isDigit_of_mem_toDigits (by decide) (by decide) hc] at h
  cases h

/-! ## With errors -/

inductive ParseIntError where
  | empty
  | invalidDigit
  | posOverflow
  deriving DecidableEq, Repr

/-- The `Display` text. -/
def ParseIntError.toText : ParseIntError → String
  | .empty => "cannot parse integer from empty string"
  | .invalidDigit => "invalid digit found in string"
  | .posOverflow => "number too large to fit in target type"

/-- The loop over the digits: a character is checked before the value is. -/
def readDigits (w : Nat) : List Char → Nat → Except ParseIntError Nat
  | [], value => .ok value
  | c :: cs, value =>
    if c.isDigit then
      if 10 * value + (c.toNat - '0'.toNat) < 2 ^ w then
        readDigits w cs (10 * value + (c.toNat - '0'.toNat))
      else .error .posOverflow
    else .error .invalidDigit

/-- `str::parse::<uW>()` -/
def readUnsigned (w : Nat) (cs : List Char) : Except ParseIntError Nat :=
  if cs = [] then .error .empty
  else if stripPlus cs = [] then .error .invalidDigit
  else readDigits w (stripPlus cs) 0

theorem readDigits_ok {w n : Nat} : ∀ {cs : List Char} {value : Nat}, value < 2 ^ w →
    readDigits w cs value = .ok n →
      cs.all Char.isDigit = true ∧ Nat.ofDigitChars 10 cs value = n ∧ n < 2 ^ w
  | [], value, hv, h => by
    cases h
    exact ⟨rfl, Nat.ofDigitChars_nil, hv⟩
  | c :: cs, value, hv, h => by
    unfold readDigits at h
    split at h
    · rename_i hc
      split at h
      · rename_i hlt
        obtain ⟨h1, h2, h3⟩ := readDigits_ok hlt h
        refine ⟨?_, ?_, h3⟩
        · rw [List.all_cons, hc, h1]
          rfl
        · rw [Nat.ofDigitChars_cons]
          exact h2
      · cases h
    · cases h

/-- What is read with errors is read without. -/
theorem parseUnsigned_of_read {w n : Nat} {cs : List Char} (h : readUnsigned w cs = .ok n) :
    parseUnsigned w cs = some n := by
  unfold readUnsigned at h
  split at h
  · cases h
  · split at h
    · cases h
    · rename_i hne
      obtain ⟨h1, h2, h3⟩ := readDigits_ok (Nat.two_pow_pos w) h
      unfold parseUnsigned
      rw [← h2] at h3 ⊢
      exact if_pos ⟨hne, h1, h3⟩

example : parseUnsigned 64 ['+', '0', '7'] = some 7 := by decide

example : parseUnsigned 8 ['2', '5', '6'] = none := by decide

end TpuTools.Decimal
