import TpuTools.Core.Floats
import TpuTools.L2Accounts.AccountsCreator

/-!
# Balances on the command line (`tools-common/src/cli.rs`)

`parse_balance` reads `1SOL`, `0.5SOL`, `1000000000LAMPORTS`, in any case; a number without a
suffix is SOL. Lamports are read as a `u64`, SOL as an `f64` that is multiplied and cast.

* `parse_balance_iff`: every text is rejected that denotes no amount in range, except that SOL
  are accepted whatever they denote.
* `not_positive_is_zero`, `infinite_is_max`: what comes out then.
-/
namespace TpuTools.Cli
open Floats Accounts

/-- The characters with the property `White_Space`. -/
def isWhitespace (c : Char) : Bool :=
  let n := c.toNat
  (9 ≤ n && n ≤ 13) || n == 32 || n == 0x85 || n == 0xA0 || n == 0x1680 ||
    (0x2000 ≤ n && n ≤ 0x200A) || n == 0x2028 || n == 0x2029 || n == 0x202F || n == 0x205F ||
    n == 0x3000

/-- `str::trim` -/
def trim (s : List Char) : List Char :=
  ((s.dropWhile isWhitespace).reverse.dropWhile isWhitespace).reverse

/-- `str::strip_suffix` -/
def stripSuffix (suffix : String) (s : List Char) : Option (List Char) :=
  if suffix.toList <:+ s then some (s.take (s.length - suffix.toList.length)) else none

/-- mirrors tools-common/src/cli.rs:101-102, 107-108 -/
def parseSol (solValue : List Char) : Except String Nat :=
  match parse solValue with
  | .ok sol => .ok (toUnsigned 64 (mul sol (round LAMPORTS_PER_SOL)))
  | .error e => .error e.toText

/-- mirrors tools-common/src/cli.rs:104 -/
def parseLamports (lamportsStr : List Char) : Except String Nat :=
  match Decimal.readUnsigned 64 lamportsStr with
  | .ok lamports => .ok lamports
  | .error e => .error e.toText

section Parse

-- `str::to_uppercase`, the mapping of Unicode; nothing depends on it
variable (toUppercase : List Char → List Char) (s : List Char)

/-- mirrors tools-common/src/cli.rs:96-110 -/
def parseBalance : Except String Nat :=
  let s := toUppercase (trim s)
  match stripSuffix "SOL" s with
  | some solValue => parseSol solValue
  | none =>
    match stripSuffix "LAMPORTS" s with
    | some lamportsStr => parseLamports lamportsStr
    | none => parseSol s

/-! ## What a text denotes -/

inductive Denomination where
  | sol
  | lamports
  deriving DecidableEq, Repr

def Denomination.lamportsEach : Denomination → ℚ
  | .sol => LAMPORTS_PER_SOL
  | .lamports => 1

/-- The suffix and the numeric part. -/
def balanceText : Denomination × List Char :=
  let s := toUppercase (trim s)
  match stripSuffix "SOL" s with
  | some text => (.sol, text)
  | none =>
    match stripSuffix "LAMPORTS" s with
    | some text => (.lamports, text)
    | none => (.sol, s)

def scale (k : ℚ) : Extended → Extended
  | .finite q => .finite (q * k)
  | x => x

/-- The lamports, exactly. -/
def amount : Option Extended :=
  (denote (balanceText toUppercase s).2).map
    (scale (balanceText toUppercase s).1.lamportsEach)

/-- Finite, not negative, and a `u64` when truncated. -/
def InRange : Extended → Prop
  | .finite q => 0 ≤ q ∧ ⌊q⌋ < 2 ^ 64
  | _ => False

/-- Only amounts in range are accepted, and every other amount is rejected. -/
structure Checked : Prop where
  ok_only : ∀ v, parseBalance toUppercase s = .ok v → ∃ a ∈ amount toUppercase s, InRange a
  rejects : ∀ a ∈ amount toUppercase s, ¬ InRange a → ∃ e, parseBalance toUppercase s = .error e

/-! ## The two paths -/

theorem parseBalance_eq : parseBalance toUppercase s =
    match (balanceText toUppercase s).1 with
    | .sol => parseSol (balanceText toUppercase s).2
    | .lamports => parseLamports (balanceText toUppercase s).2 := by
  unfold parseBalance balanceText
  simp only
  split
  · rfl
  · split <;> rfl

/-- SOL that denote something are accepted. -/
theorem parseSol_ok_iff {text : List Char} :
    (∃ v, parseSol text = .ok v) ↔ ∃ x, denote text = some x := by
  unfold parseSol parse
  cases denote text <;> simp

theorem parseLamports_ok {text : List Char} {v : Nat} (h : parseLamports text = .ok v) :
    denote text = some (.finite v) ∧ v < 2 ^ 64 := by
  unfold parseLamports at h
  cases hr : Decimal.readUnsigned 64 text with
  | error e =>
    rw [hr] at h
    cases h
  | ok n =>
    rw [hr] at h
    cases h
    have hn := Decimal.parseUnsigned_of_read hr
    exact ⟨denote_unsigned hn, Decimal.parseUnsigned_lt hn⟩

/-- What is accepted is a `u64`. -/
theorem parseBalance_lt {v : Nat} (h : parseBalance toUppercase s = .ok v) : v < 2 ^ 64 := by
  rw [parseBalance_eq] at h
  cases hd : (balanceText toUppercase s).1 with
  | sol =>
    rw [hd] at h
    simp only [parseSol] at h
    split at h
    · cases h
      exact toUnsigned_lt 64 _
    · cases h
  | lamports =>
    rw [hd] at h
    exact (parseLamports_ok h).2

/-- **Only in range, except for SOL.** The texts that are accepted and should not be are those
with SOL or no suffix that denote no number, an infinity, a negative number or too many
lamports. -/
theorem parse_balance_iff : Checked toUppercase s ↔
    ((balanceText toUppercase s).1 = .sol → ∀ a ∈ amount toUppercase s, InRange a) := by
  have hparse := parseBalance_eq toUppercase s
  constructor
  · intro hC hsol a ha
    by_contra hrange
    obtain ⟨e, he⟩ := hC.rejects a ha hrange
    obtain ⟨x, hx, -⟩ := Option.map_eq_some_iff.1 ha
    obtain ⟨v, hv⟩ := parseSol_ok_iff.2 ⟨x, hx⟩
    rw [hsol] at hparse
    rw [he, hv] at hparse
    cases hparse
  · intro hsol
    have hok : ∀ v, parseBalance toUppercase s = .ok v →
        ∃ a ∈ amount toUppercase s, InRange a := by
      intro v hv
      rw [hparse] at hv
      unfold amount at hsol ⊢
      cases hd : (balanceText toUppercase s).1 with
      | sol =>
        rw [hd] at hv hsol
        obtain ⟨x, hx⟩ := parseSol_ok_iff.1 ⟨v, hv⟩
        rw [hx] at hsol ⊢
        exact ⟨_, rfl, hsol rfl _ rfl⟩
      | lamports =>
        rw [hd] at hv
        obtain ⟨hx, hlt⟩ := parseLamports_ok hv
        rw [hx]
        refine ⟨_, rfl, ?_⟩
        simp only [scale, Denomination.lamportsEach, InRange, mul_one, Int.floor_natCast]
        exact ⟨Nat.cast_nonneg v, by exact_mod_cast hlt⟩
    refine ⟨hok, ?_⟩
    intro a ha hrange
    cases hp : parseBalance toUppercase s with
    | error e => exact ⟨e, rfl⟩
    | ok v =>
      obtain ⟨a', ha', hrange'⟩ := hok v hp
      rw [Option.mem_unique ha' ha] at hrange'
      exact absurd hrange' hrange

end Parse

/-- On the texts of the command line it is enough to know the letters of ASCII. -/
def asciiUppercase (s : List Char) : List Char := s.map Char.toUpper

theorem out_of_range_accepted :
    parseBalance asciiUppercase "-1SOL".toList = .ok 0 ∧
    parseBalance asciiUppercase "NaN".toList = .ok 0 ∧
    parseBalance asciiUppercase "inf".toList = .ok (2 ^ 64 - 1) ∧
    parseBalance asciiUppercase "18446744074sol".toList = .ok (2 ^ 64 - 1) ∧
    parseBalance asciiUppercase "-1LAMPORTS".toList = .error "invalid digit found in string" ∧
    ¬ Checked asciiUppercase "-1SOL".toList ∧ ¬ Checked asciiUppercase "NaN".toList ∧
    ¬ Checked asciiUppercase "inf".toList ∧ ¬ Checked asciiUppercase "18446744074sol".toList := by
  have hamount : amount asciiUppercase "-1SOL".toList = some (.finite (-1000000000)) ∧
      amount asciiUppercase "NaN".toList = some .nan ∧
      amount asciiUppercase "inf".toList = some (.infinity false) ∧
      amount asciiUppercase "18446744074sol".toList = some (.finite 18446744074000000000) := by
    decide +kernel
  obtain ⟨h1, h2, h3, h4⟩ := hamount
  have hparse : parseBalance asciiUppercase "-1SOL".toList = .ok 0 ∧
      parseBalance asciiUppercase "NaN".toList = .ok 0 ∧
      parseBalance asciiUppercase "inf".toList = .ok (2 ^ 64 - 1) ∧
      parseBalance asciiUppercase "18446744074sol".toList = .ok (2 ^ 64 - 1) ∧
      parseBalance asciiUppercase "-1LAMPORTS".toList = .error "invalid digit found in string" := by
    decide +kernel
  obtain ⟨p1, p2, p3, p4, p5⟩ := hparse
  have key : ∀ (s : List Char) (v : Nat) (a : Extended), parseBalance asciiUppercase s = .ok v →
      amount asciiUppercase s = some a → ¬ InRange a → ¬ Checked asciiUppercase s := by
    intro s v a hv ha hrange hC
    obtain ⟨e, he⟩ := hC.rejects a ha hrange
    rw [hv] at he
    cases he
  refine ⟨p1, p2, p3, p4, p5, key _ _ _ p1 h1 ?_, key _ _ _ p2 h2 id, key _ _ _ p3 h3 id,
    key _ _ _ p4 h4 ?_⟩
  · norm_num [InRange]
  · norm_num [InRange]

/-- The texts of the unit test. -/
example : parseBalance asciiUppercase " 3sol ".toList = .ok 3000000000 ∧
    parseBalance asciiUppercase "2.25SOL".toList = .ok 2250000000 ∧
    parseBalance asciiUppercase "42lamports".toList = .ok 42 ∧
    parseBalance asciiUppercase "0.1".toList = .ok 100000000 ∧
    parseBalance asciiUppercase "0.0000000009SOL".toList = .ok 0 ∧
    parseBalance asciiUppercase "1.2.3SOL".toList = .error "invalid float literal" ∧
    parseBalance asciiUppercase "SOL".toList = .error "cannot parse float from empty string" := by
  decide +kernel

/-! ## What comes out instead -/

section Instead

theorem lamportsPerSol_exact : round LAMPORTS_PER_SOL = .finite LAMPORTS_PER_SOL := by
  decide +kernel

theorem parseSol_of_denote {text : List Char} {x : Extended} (h : denote text = some x) :
    parseSol text = .ok (toUnsigned 64 (mul (toDouble x) (.finite LAMPORTS_PER_SOL))) := by
  unfold parseSol parse
  rw [h, lamportsPerSol_exact]

variable {toUppercase : List Char → List Char} {s : List Char} {a : Extended}
  (hsol : (balanceText toUppercase s).1 = .sol) (ha : a ∈ amount toUppercase s)

include hsol ha

theorem parseBalance_of_amount : ∃ x, scale LAMPORTS_PER_SOL x = a ∧
    parseBalance toUppercase s =
      .ok (toUnsigned 64 (mul (toDouble x) (.finite LAMPORTS_PER_SOL))) := by
  obtain ⟨x, hx, he⟩ := Option.map_eq_some_iff.1 ha
  rw [hsol] at he
  refine ⟨x, he, ?_⟩
  rw [parseBalance_eq, hsol]
  exact parseSol_of_denote hx

/-- A negative number of SOL, and what is no number, are no lamports. -/
theorem not_positive_is_zero (hn : NotPos a) : parseBalance toUppercase s = .ok 0 := by
  obtain ⟨x, rfl, hp⟩ := parseBalance_of_amount hsol ha
  have hpos : (0 : ℚ) < LAMPORTS_PER_SOL := by
    unfold LAMPORTS_PER_SOL
    norm_num
  have hx : NotPos x := by
    cases x with
    | finite q => exact nonpos_of_mul_nonpos_left hn hpos
    | nan | infinity => exact hn
  rw [hp, toUnsigned_of_notPos 64 (mul_notPos (toDouble_notPos hx) hpos)]

theorem infinite_is_max (hi : a = .infinity false) :
    parseBalance toUppercase s = .ok (2 ^ 64 - 1) := by
  obtain ⟨x, rfl, hp⟩ := parseBalance_of_amount hsol ha
  cases x with
  | infinity negative =>
    cases hi
    rw [hp]
    decide +kernel
  | nan | finite => cases hi

end Instead

end TpuTools.Cli
