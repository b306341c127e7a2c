import TpuTools.Core.Chunks
import TpuTools.Core.Ints

/-!
# `find_tx_ticks` (`rate-latency-tool/src/yellowstone_subscriber.rs`)

The entries of a slot, in order, cover the positions of its transactions with their
`executed_transaction_count`; an entry with count 0 is a tick. The function first sums
the counts of each tick (`countTxs`), then walks over the positions with a cursor on the
tick sums (`tickLoop`, inner `while`: `advance`).

`none` is a panic: an index out of range, or an overflowing sum in a build with overflow
checks. Without them the sums wrap, and the walk has to end all the same. Vectors are allocated
as asked for.

* `findTxTicks_spec`: when the counts sum to `N < 2 ^ 64`, the result is the list of
  length `N` whose `i`-th item is the number of ticks before the entry of position `i`.
* `findTxTicks_eq_none`: the only panic is a checked overflow.
* `findTxTicks_length`: in general the result has length `N mod 2 ^ 64`.
-/
namespace TpuTools.Subscriber
open Ints Chunks

/-- mirrors rate-latency-tool/src/yellowstone_subscriber.rs:364-367 -/
structure EntryRecord where
  index : Nat
  executedTransactionCount : Nat
  deriving DecidableEq, Repr

/-- The variables of the first loop. -/
structure TickSums where
  numTxsPerTick : List Nat
  curNumTxs : Nat
  totalNumTxs : Nat
  deriving DecidableEq, Repr

variable (checks : Bool)

/-- mirrors rate-latency-tool/src/yellowstone_subscriber.rs:587-593 -/
def countStep (a : TickSums) (entry : EntryRecord) : Option TickSums :=
  if entry.executedTransactionCount = 0 then
    some { a with numTxsPerTick := a.numTxsPerTick ++ [a.curNumTxs], curNumTxs := 0 }
  else
    (addU64 checks a.curNumTxs entry.executedTransactionCount).bind fun cur =>
      (addU64 checks a.totalNumTxs entry.executedTransactionCount).map fun total =>
        { a with curNumTxs := cur, totalNumTxs := total }

/-- mirrors rate-latency-tool/src/yellowstone_subscriber.rs:583-594 -/
def countTxs (entries : List EntryRecord) : Option TickSums :=
  entries.foldlM (countStep checks) ⟨[], 0, 0⟩

/-- The trailing push of an unclosed tick.
mirrors rate-latency-tool/src/yellowstone_subscriber.rs:598-601 -/
def TickSums.closed (a : TickSums) : List Nat :=
  if 0 < a.curNumTxs then a.numTxsPerTick ++ [a.curNumTxs] else a.numTxsPerTick

/-- The inner `while`. `rest` is `num_txs_per_tick[tick + 1 ..]`, so its head is the
element the body indexes.
mirrors rate-latency-tool/src/yellowstone_subscriber.rs:607-610 -/
def advance (txIndex : Nat) : List Nat → Nat → Nat → Option (List Nat × Nat × Nat)
  | [], last, tick => if last ≤ txIndex then none else some ([], last, tick)
  | n :: rest, last, tick =>
    if last ≤ txIndex then
      (addU64 checks last n).bind fun last' => advance txIndex rest last' (tick + 1)
    else some (n :: rest, last, tick)

/-- The loop over the `todo` positions from `txIndex` on. Every item of `ticks` is
overwritten, so the filler of `vec![64; n]` never shows.
mirrors rate-latency-tool/src/yellowstone_subscriber.rs:606-612 -/
def tickLoop : Nat → Nat → List Nat → Nat → Nat → Option (List Nat)
  | 0, _, _, _, _ => some []
  | todo + 1, txIndex, rest, last, tick =>
    (advance checks txIndex rest last tick).bind fun (rest', last', tick') =>
      (tickLoop todo (txIndex + 1) rest' last' tick').map (tick' :: ·)

/-- mirrors rate-latency-tool/src/yellowstone_subscriber.rs:582-614 -/
def findTxTicks (entries : List EntryRecord) : Option (List Nat) :=
  (countTxs checks entries).bind fun a =>
    if a.totalNumTxs = 0 then some []
    else
      match a.closed with
      | [] => none
      | last :: rest => tickLoop checks a.totalNumTxs 0 rest last 0

/-- The entries' transaction counts. -/
def countsOf (entries : List EntryRecord) : List Nat := entries.map (·.executedTransactionCount)

/-! ## Sums that fit -/

/-- The first loop computes the groups between the zero entries. -/
theorem countFold_exact : ∀ (entries : List EntryRecord) (a : TickSums),
    a.curNumTxs ≤ a.totalNumTxs → a.totalNumTxs + (countsOf entries).sum < 2 ^ 64 →
      ∃ a', entries.foldlM (countStep checks) a = some a' ∧
        a'.totalNumTxs = a.totalNumTxs + (countsOf entries).sum ∧
        a'.closed = a.numTxsPerTick ++ groups a.curNumTxs (countsOf entries)
  | [], a, _, _ => by
    refine ⟨a, rfl, by simp [countsOf], ?_⟩
    unfold TickSums.closed
    simp only [countsOf, List.map_nil, groups]
    split <;> simp
  | e :: es, a, hle, hlt => by
    simp only [countsOf, List.map_cons, List.sum_cons] at hlt
    by_cases he : e.executedTransactionCount = 0
    · obtain ⟨a', h1, h2, h3⟩ := countFold_exact es
        { a with numTxsPerTick := a.numTxsPerTick ++ [a.curNumTxs], curNumTxs := 0 }
        (Nat.zero_le _) (by simp only [countsOf]; omega)
      refine ⟨a', ?_, ?_, ?_⟩
      · simpa [countStep, he] using h1
      · rw [h2]; simp [countsOf, he]
      · rw [h3]; simp [countsOf, groups, he]
    · have hcur : a.curNumTxs + e.executedTransactionCount < 2 ^ 64 := by omega
      have htot : a.totalNumTxs + e.executedTransactionCount < 2 ^ 64 := by omega
      obtain ⟨a', h1, h2, h3⟩ := countFold_exact es
        { a with curNumTxs := a.curNumTxs + e.executedTransactionCount,
                 totalNumTxs := a.totalNumTxs + e.executedTransactionCount }
        (by simp only; omega) (by simp only [countsOf]; omega)
      refine ⟨a', ?_, ?_, ?_⟩
      · simpa [countStep, he, addU64_of_lt checks hcur, addU64_of_lt checks htot] using h1
      · rw [h2]; simp only [countsOf, List.map_cons, List.sum_cons]; omega
      · rw [h3]; simp [countsOf, groups, he]

/-- The cursor moves to the tick of `txIndex` and keeps the numbering of all later
positions. -/
theorem advance_exact (txIndex : Nat) : ∀ (rest : List Nat) (last tick : Nat),
    last + rest.sum < 2 ^ 64 → txIndex < last + rest.sum →
      ∃ rest' last' tick', advance checks txIndex rest last tick = some (rest', last', tick') ∧
        txIndex < last' ∧ last' + rest'.sum = last + rest.sum ∧
        ∀ j, txIndex ≤ j → tick + chunkOf (last :: rest) j = tick' + chunkOf (last' :: rest') j
  | [], last, tick, _, h => by
    simp only [List.sum_nil, Nat.add_zero] at h
    exact ⟨[], last, tick, if_neg (by omega), h, rfl, fun _ _ => rfl⟩
  | n :: rest, last, tick, hfit, h => by
    simp only [List.sum_cons] at hfit h
    rcases Nat.lt_or_ge txIndex last with hlt | hge
    · exact ⟨n :: rest, last, tick, if_neg (by omega), hlt, rfl, fun _ _ => rfl⟩
    · obtain ⟨rest', last', tick', h1, h2, h3, h4⟩ :=
        advance_exact txIndex rest (last + n) (tick + 1) (by omega) (by omega)
      refine ⟨rest', last', tick', ?_, h2, by simp only [List.sum_cons]; omega, ?_⟩
      · simp only [advance, if_pos hge, addU64_of_lt checks (show last + n < 2 ^ 64 by omega),
          Option.bind_some]
        exact h1
      · intro j hj
        have hm := chunkOf_merge n rest (Nat.le_trans hge hj)
        have h5 := h4 j hj
        omega

theorem tickLoop_exact : ∀ (todo txIndex : Nat) (rest : List Nat) (last tick : Nat),
    last + rest.sum < 2 ^ 64 → txIndex + todo ≤ last + rest.sum →
      tickLoop checks todo txIndex rest last tick =
        some ((List.range' txIndex todo).map fun j => tick + chunkOf (last :: rest) j)
  | 0, _, _, _, _, _, _ => rfl
  | todo + 1, txIndex, rest, last, tick, hfit, h => by
    obtain ⟨rest', last', tick', h1, h2, h3, h4⟩ :=
      advance_exact checks txIndex rest last tick hfit (by omega)
    have ih := tickLoop_exact todo (txIndex + 1) rest' last' tick' (by omega) (by omega)
    have hhead : tick' = tick + chunkOf (last :: rest) txIndex := by
      rw [h4 txIndex (Nat.le_refl _), chunkOf_cons_lt rest' h2]; rfl
    have htail : ∀ j ∈ List.range' (txIndex + 1) todo,
        tick' + chunkOf (last' :: rest') j = tick + chunkOf (last :: rest) j := by
      intro j hj
      rw [List.mem_range'_1] at hj
      exact (h4 j (by omega)).symm
    simp only [tickLoop, h1, Option.bind_some, ih, Option.map_some, List.range'_succ, List.map_cons]
    rw [List.map_congr_left htail, ← hhead]

/-- **Spec.** Item `i` of the result is the number of zero-count entries before the entry
whose range of positions holds `i`. -/
theorem findTxTicks_spec {entries : List EntryRecord} (h : (countsOf entries).sum < 2 ^ 64) :
    findTxTicks checks entries =
      some ((List.range (countsOf entries).sum).map (emptyBefore (countsOf entries))) := by
  obtain ⟨a, h1, h2, h3⟩ := countFold_exact checks entries ⟨[], 0, 0⟩
    (Nat.le_refl _) (by simpa using h)
  simp only [Nat.zero_add] at h2
  simp only [List.nil_append] at h3
  have hsum := groups_sum (countsOf entries) 0
  simp only [findTxTicks, countTxs, h1, Option.bind_some, h2, h3]
  by_cases h0 : (countsOf entries).sum = 0
  · simp [h0]
  · rw [if_neg h0]
    cases hg : groups 0 (countsOf entries) with
    | nil => rw [hg] at hsum; simp at hsum; omega
    | cons last rest =>
      rw [hg, List.sum_cons] at hsum
      simp only
      rw [tickLoop_exact checks _ 0 rest last 0 (by omega) (by omega), ← hg, ← List.range_eq_range']
      congr 1
      apply List.map_congr_left
      intro i hi
      rw [List.mem_range] at hi
      rw [chunkOf_groups _ 0 i (by omega)]
      simp

/-! ## Sums that wrap -/

/-- After counting entries with `n` transactions: all sums agree modulo `2 ^ 64`. -/
structure SumsInv (n : Nat) (a : TickSums) : Prop where
  total_lt : a.totalNumTxs < 2 ^ 64
  total : a.totalNumTxs ≡ n [MOD 2 ^ 64]
  ticks : a.numTxsPerTick.sum + a.curNumTxs ≡ n [MOD 2 ^ 64]
  tick_lt : ∀ m ∈ a.numTxsPerTick, m < 2 ^ 64
  cur_lt : a.curNumTxs < 2 ^ 64

theorem countStep_inv {n : Nat} {a a' : TickSums} {e : EntryRecord} (hI : SumsInv n a)
    (h : countStep checks a e = some a') : SumsInv (n + e.executedTransactionCount) a' := by
  unfold countStep at h
  split at h
  · rename_i he
    cases h
    refine ⟨hI.total_lt, by simpa [he] using hI.total, by simpa [he] using hI.ticks, ?_, by simp⟩
    intro m hm
    rcases List.mem_append.1 hm with hm | hm
    · exact hI.tick_lt m hm
    · rw [List.mem_singleton.1 hm]; exact hI.cur_lt
  · simp only [Option.bind_eq_some_iff, Option.map_eq_some_iff] at h
    obtain ⟨cur, hcur, total, htot, rfl⟩ := h
    obtain ⟨hc1, hc2⟩ := addU64_modEq hcur
    obtain ⟨ht1, ht2⟩ := addU64_modEq htot
    refine ⟨ht2, ht1.trans (hI.total.add_right _), ?_, hI.tick_lt, hc2⟩
    have h1 := (hc1.add_left a.numTxsPerTick.sum).trans
      (by rw [← Nat.add_assoc] : a.numTxsPerTick.sum + (a.curNumTxs + _) ≡ _ [MOD 2 ^ 64])
    exact h1.trans (hI.ticks.add_right _)

theorem countFold_inv : ∀ (entries : List EntryRecord) (n : Nat) (a a' : TickSums),
    SumsInv n a → entries.foldlM (countStep checks) a = some a' →
      SumsInv (n + (countsOf entries).sum) a'
  | [], n, a, a', hI, h => by
    simp only [List.foldlM_nil, Option.pure_def, Option.some.injEq] at h
    subst h
    simpa [countsOf] using hI
  | e :: es, n, a, a', hI, h => by
    simp only [List.foldlM_cons, Option.bind_eq_bind, Option.bind_eq_some_iff] at h
    obtain ⟨a₁, h₁, h₂⟩ := h
    have := countFold_inv es _ a₁ a' (countStep_inv checks hI h₁) h₂
    simpa [countsOf, Nat.add_assoc] using this

theorem countTxs_inv {entries : List EntryRecord} {a : TickSums}
    (h : countTxs checks entries = some a) : SumsInv (countsOf entries).sum a := by
  have h0 : SumsInv 0 ⟨[], 0, 0⟩ := ⟨by simp, rfl, rfl, by simp, by simp⟩
  simpa using countFold_inv checks entries 0 _ a h0 h

theorem SumsInv.total_eq {n : Nat} {a : TickSums} (hI : SumsInv n a) :
    a.totalNumTxs = n % 2 ^ 64 := by
  have h : a.totalNumTxs % 2 ^ 64 = n % 2 ^ 64 := hI.total
  rwa [Nat.mod_eq_of_lt hI.total_lt] at h

theorem SumsInv.closed_sum {n : Nat} {a : TickSums} (hI : SumsInv n a) :
    a.closed.sum ≡ a.totalNumTxs [MOD 2 ^ 64] := by
  have h := hI.ticks.trans hI.total.symm
  unfold TickSums.closed
  split
  · simpa using h
  · rename_i hc
    simpa [show a.curNumTxs = 0 by omega] using h

theorem SumsInv.closed_lt {n : Nat} {a : TickSums} (hI : SumsInv n a) :
    ∀ m ∈ a.closed, m < 2 ^ 64 := by
  unfold TickSums.closed
  split
  · intro m hm
    rcases List.mem_append.1 hm with hm | hm
    · exact hI.tick_lt m hm
    · rw [List.mem_singleton.1 hm]; exact hI.cur_lt
  · exact hI.tick_lt

/-- Wrapping sums cannot make the cursor run out of ticks: at the last tick the wrapped
prefix sum is the wrapped total, which no position reaches. -/
theorem advance_wrap {total txIndex : Nat} (htot : total < 2 ^ 64) (hi : txIndex < total) :
    ∀ (rest : List Nat) (last tick : Nat), last < 2 ^ 64 →
      last + rest.sum ≡ total [MOD 2 ^ 64] →
        ∃ rest' last' tick', advance false txIndex rest last tick = some (rest', last', tick') ∧
          last' < 2 ^ 64 ∧ last' + rest'.sum ≡ total [MOD 2 ^ 64]
  | [], last, tick, hlt, hmod => by
    have he : last = total := by
      rw [List.sum_nil, Nat.add_zero] at hmod
      have h : last % 2 ^ 64 = total % 2 ^ 64 := hmod
      rwa [Nat.mod_eq_of_lt hlt, Nat.mod_eq_of_lt htot] at h
    exact ⟨[], last, tick, if_neg (by omega), hlt, hmod⟩
  | n :: rest, last, tick, hlt, hmod => by
    rcases Nat.lt_or_ge txIndex last with h | hge
    · exact ⟨n :: rest, last, tick, if_neg (by omega), hlt, hmod⟩
    · have hmod' : (last + n) % 2 ^ 64 + rest.sum ≡ total [MOD 2 ^ 64] := by
        refine ((Nat.mod_modEq _ _).add_right _).trans ?_
        simpa [Nat.add_assoc] using hmod
      obtain ⟨rest', last', tick', h1, h2, h3⟩ := advance_wrap htot hi rest
        ((last + n) % 2 ^ 64) (tick + 1) (Nat.mod_lt _ (by decide)) hmod'
      refine ⟨rest', last', tick', ?_, h2, h3⟩
      simp only [advance, if_pos hge, addU64_wrap, Option.bind_some]
      exact h1

theorem tickLoop_wrap {total : Nat} (htot : total < 2 ^ 64) :
    ∀ (todo txIndex : Nat) (rest : List Nat) (last tick : Nat), txIndex + todo ≤ total →
      last < 2 ^ 64 → last + rest.sum ≡ total [MOD 2 ^ 64] →
        ∃ ticks, tickLoop false todo txIndex rest last tick = some ticks ∧ ticks.length = todo
  | 0, _, _, _, _, _, _, _ => ⟨[], rfl, rfl⟩
  | todo + 1, txIndex, rest, last, tick, hi, hlt, hmod => by
    obtain ⟨rest', last', tick', h1, h2, h3⟩ :=
      advance_wrap htot (show txIndex < total by omega) rest last tick hlt hmod
    obtain ⟨ticks, h4, h5⟩ :=
      tickLoop_wrap htot todo (txIndex + 1) rest' last' tick' (by omega) h2 h3
    exact ⟨tick' :: ticks, by simp [tickLoop, h1, h4], by simp [h5]⟩

theorem countTxs_wrap (entries : List EntryRecord) :
    ∃ a, countTxs false entries = some a := by
  have key : ∀ (es : List EntryRecord) (a : TickSums),
      ∃ a', es.foldlM (countStep false) a = some a' := by
    intro es
    induction es with
    | nil => intro a; exact ⟨a, rfl⟩
    | cons e es ih =>
      intro a
      by_cases he : e.executedTransactionCount = 0
      · obtain ⟨a', h⟩ := ih { a with numTxsPerTick := a.numTxsPerTick ++ [a.curNumTxs], curNumTxs := 0 }
        exact ⟨a', by simpa [countStep, he] using h⟩
      · obtain ⟨a', h⟩ := ih
          { a with curNumTxs := (a.curNumTxs + e.executedTransactionCount) % 2 ^ 64,
                   totalNumTxs := (a.totalNumTxs + e.executedTransactionCount) % 2 ^ 64 }
        exact ⟨a', by simpa [countStep, he] using h⟩
  exact key entries _

/-- A build without overflow checks never panics here. -/
theorem findTxTicks_wrap (entries : List EntryRecord) :
    ∃ ticks, findTxTicks false entries = some ticks ∧
      ticks.length = (countsOf entries).sum % 2 ^ 64 := by
  obtain ⟨a, ha⟩ := countTxs_wrap entries
  have hI := countTxs_inv false ha
  simp only [findTxTicks, ha, Option.bind_some]
  rw [← hI.total_eq]
  by_cases h0 : a.totalNumTxs = 0
  · exact ⟨[], by simp [h0]⟩
  · rw [if_neg h0]
    have hsum := hI.closed_sum
    have hlt := hI.closed_lt
    cases hc : a.closed with
    | nil =>
      rw [hc, List.sum_nil] at hsum
      have h : 0 % 2 ^ 64 = a.totalNumTxs % 2 ^ 64 := hsum
      rw [Nat.mod_eq_of_lt hI.total_lt] at h
      exact absurd h.symm h0
    | cons last rest =>
      rw [hc] at hsum hlt
      exact tickLoop_wrap hI.total_lt _ 0 rest last 0 (by omega) (hlt last List.mem_cons_self)
        (by simpa using hsum)

/-- With overflow checks the totals that come out are exact. -/
theorem countFold_checked : ∀ (entries : List EntryRecord) (a a' : TickSums),
    a.totalNumTxs < 2 ^ 64 → entries.foldlM (countStep true) a = some a' →
      a.totalNumTxs + (countsOf entries).sum < 2 ^ 64
  | [], a, a', hlt, _ => by simpa [countsOf] using hlt
  | e :: es, a, a', hlt, h => by
    simp only [List.foldlM_cons, Option.bind_eq_bind, Option.bind_eq_some_iff] at h
    obtain ⟨a₁, h₁, h₂⟩ := h
    have hstep : a₁.totalNumTxs = a.totalNumTxs + e.executedTransactionCount ∧
        a₁.totalNumTxs < 2 ^ 64 := by
      unfold countStep at h₁
      split at h₁
      · rename_i he; cases h₁; exact ⟨by simp [he], hlt⟩
      · simp only [Option.bind_eq_some_iff, Option.map_eq_some_iff] at h₁
        obtain ⟨cur, -, total, htot, rfl⟩ := h₁
        unfold addU64 at htot
        split at htot
        · rename_i hfit; cases htot; exact ⟨rfl, hfit⟩
        · cases htot
    have := countFold_checked es a₁ a' hstep.2 h₂
    simp only [countsOf, List.map_cons, List.sum_cons] at this ⊢
    omega

/-- **Panics.** The function panics exactly on a checked overflow of the counts. -/
theorem findTxTicks_eq_none {entries : List EntryRecord} :
    findTxTicks checks entries = none ↔ checks = true ∧ 2 ^ 64 ≤ (countsOf entries).sum := by
  constructor
  · intro h
    cases checks with
    | false =>
      obtain ⟨ticks, ht, -⟩ := findTxTicks_wrap entries
      rw [ht] at h; cases h
    | true =>
      refine ⟨rfl, ?_⟩
      by_contra hlt
      rw [findTxTicks_spec true (by omega)] at h
      cases h
  · rintro ⟨rfl, hge⟩
    cases hc : countTxs true entries with
    | none => simp [findTxTicks, hc]
    | some a =>
      have := countFold_checked entries _ a (by simp) hc
      simp only [Nat.zero_add] at this
      omega

theorem findTxTicks_length {entries : List EntryRecord} {ticks : List Nat}
    (h : findTxTicks checks entries = some ticks) :
    ticks.length = (countsOf entries).sum % 2 ^ 64 := by
  by_cases hlt : (countsOf entries).sum < 2 ^ 64
  · rw [findTxTicks_spec checks hlt] at h
    cases h
    rw [Nat.mod_eq_of_lt hlt]; simp
  · cases checks with
    | false =>
      obtain ⟨ticks', ht, hlen⟩ := findTxTicks_wrap entries
      rw [h] at ht; cases ht; exact hlen
    | true => rw [(findTxTicks_eq_none true).2 ⟨rfl, by omega⟩] at h; cases h

example : findTxTicks true [⟨0, 0⟩, ⟨1, 0⟩, ⟨2, 3⟩, ⟨3, 0⟩, ⟨4, 0⟩, ⟨5, 1⟩] = some [2, 2, 2, 4] := by
  decide

/-! ## The numbers of the ticks -/

/-- The cursor moves on by one tick for each it leaves behind. -/
theorem advance_tick {txIndex : Nat} : ∀ (rest : List Nat) (last tick : Nat)
    {rest' : List Nat} {last' tick' : Nat},
    advance checks txIndex rest last tick = some (rest', last', tick') →
      tick' + rest'.length = tick + rest.length
  | [], last, tick, rest', last', tick', h => by
    unfold advance at h
    split at h
    · cases h
    · cases h
      rfl
  | n :: rest, last, tick, rest', last', tick', h => by
    unfold advance at h
    split at h
    · obtain ⟨last₁, -, h⟩ := Option.bind_eq_some_iff.1 h
      have ih := advance_tick rest last₁ (tick + 1) h
      rw [List.length_cons]
      omega
    · cases h
      rfl

theorem tickLoop_le : ∀ (todo txIndex : Nat) (rest : List Nat) (last tick : Nat) {ticks : List Nat},
    tickLoop checks todo txIndex rest last tick = some ticks →
      ∀ t ∈ ticks, t ≤ tick + rest.length
  | 0, _, _, _, _, ticks, h => by
    cases h
    exact fun t ht => absurd ht List.not_mem_nil
  | todo + 1, txIndex, rest, last, tick, ticks, h => by
    obtain ⟨⟨rest', last', tick'⟩, hadvance, h⟩ := Option.bind_eq_some_iff.1 h
    obtain ⟨later, hlater, rfl⟩ := Option.map_eq_some_iff.1 h
    have hmoved := advance_tick checks rest last tick hadvance
    intro t ht
    rcases List.mem_cons.1 ht with rfl | ht
    · omega
    · have hle := tickLoop_le todo (txIndex + 1) rest' last' tick' hlater t ht
      omega

theorem countStep_length {a a' : TickSums} {e : EntryRecord} (h : countStep checks a e = some a') :
    a'.numTxsPerTick.length ≤ a.numTxsPerTick.length + 1 := by
  unfold countStep at h
  split at h
  · cases h
    simp
  · simp only [Option.bind_eq_some_iff, Option.map_eq_some_iff] at h
    obtain ⟨cur, -, total, -, rfl⟩ := h
    exact Nat.le_succ _

theorem countFold_length : ∀ (entries : List EntryRecord) (a a' : TickSums),
    entries.foldlM (countStep checks) a = some a' →
      a'.numTxsPerTick.length ≤ a.numTxsPerTick.length + entries.length
  | [], a, a', h => by
    cases h
    exact Nat.le_refl _
  | e :: es, a, a', h => by
    simp only [List.foldlM_cons, Option.bind_eq_bind, Option.bind_eq_some_iff] at h
    obtain ⟨a₁, h₁, h₂⟩ := h
    have hstep := countStep_length checks h₁
    have ih := countFold_length es a₁ a' h₂
    rw [List.length_cons]
    omega

theorem findTxTicks_le {entries : List EntryRecord} {ticks : List Nat}
    (h : findTxTicks checks entries = some ticks) : ∀ t ∈ ticks, t ≤ entries.length := by
  obtain ⟨a, ha, h⟩ := Option.bind_eq_some_iff.1 h
  have hlen : a.closed.length ≤ entries.length + 1 := by
    have hcount := countFold_length checks entries _ a ha
    simp only [List.length_nil, Nat.zero_add] at hcount
    unfold TickSums.closed
    split
    · rw [List.length_append, List.length_singleton]
      omega
    · omega
  split at h
  · cases h
    exact fun t ht => absurd ht List.not_mem_nil
  · split at h
    · cases h
    · rename_i last rest hclosed
      intro t ht
      have hle := tickLoop_le checks _ _ _ _ _ h t ht
      rw [hclosed, List.length_cons] at hlen
      omega

end TpuTools.Subscriber
