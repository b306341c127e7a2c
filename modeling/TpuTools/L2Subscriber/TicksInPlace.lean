import TpuTools.L2Subscriber.Ticks

/-!
# `find_tx_ticks` on its vectors (`rate-latency-tool/src/yellowstone_subscriber.rs`)

`Ticks` follows the cursor with the rest of the tick sums in hand and builds the result
item by item. The source indexes `num_txs_per_tick` and overwrites a vector filled with 64;
`findTxTicksInPlace` does the same, and `inPlace_eq` says that this makes no difference.

* **`find_tx_ticks_exact`**: every item of the result is the number of zero-count entries before
  the entry of its position; the filler never shows.
-/
namespace TpuTools.Subscriber
open Ints Chunks

variable (checks : Bool)

/-- The inner `while` for one position; `none` is an index out of range or an overflow.
mirrors rate-latency-tool/src/yellowstone_subscriber.rs:607-610 -/
def advanceAt (numTxsPerTick : List Nat) (txIndex lastTxIndexInTick tick : Nat) :
    Option (Nat × Nat) :=
  if lastTxIndexInTick ≤ txIndex then
    if h : tick + 1 < numTxsPerTick.length then
      match addU64 checks lastTxIndexInTick numTxsPerTick[tick + 1] with
      | none => none
      | some last => advanceAt numTxsPerTick txIndex last (tick + 1)
    else none
  else some (lastTxIndexInTick, tick)
termination_by numTxsPerTick.length - tick

/-- The loop over the `todo` items of `ticks` from `txIndex` on.
mirrors rate-latency-tool/src/yellowstone_subscriber.rs:606-612 -/
def fillTicks (numTxsPerTick : List Nat) : Nat → Nat → Nat → Nat → List Nat → Option (List Nat)
  | 0, _, _, _, ticks => some ticks
  | todo + 1, txIndex, lastTxIndexInTick, tick, ticks =>
    (advanceAt checks numTxsPerTick txIndex lastTxIndexInTick tick).bind fun (last, tick) =>
      fillTicks numTxsPerTick todo (txIndex + 1) last tick (ticks.set txIndex tick)

/-- mirrors rate-latency-tool/src/yellowstone_subscriber.rs:582-614 -/
def findTxTicksInPlace (entries : List EntryRecord) : Option (List Nat) :=
  (countTxs checks entries).bind fun a =>
    if a.totalNumTxs = 0 then some []
    else a.closed[0]?.bind fun last =>
      fillTicks checks a.closed a.totalNumTxs 0 last 0 (List.replicate a.totalNumTxs 64)

variable {checks}

/-! ## The indexed loops and the others -/

/-- The cursor drops what it passes. -/
theorem advance_rest {txIndex : Nat} : ∀ {rest : List Nat} {last tick : Nat} {rest' : List Nat}
    {last' tick' : Nat}, advance checks txIndex rest last tick = some (rest', last', tick') →
      tick ≤ tick' ∧ rest' = rest.drop (tick' - tick)
  | [], last, tick, rest', last', tick', h => by
    simp only [advance] at h
    split at h
    · cases h
    · cases h
      exact ⟨Nat.le_refl _, by simp⟩
  | n :: rest, last, tick, rest', last', tick', h => by
    simp only [advance] at h
    split at h
    · obtain ⟨next, -, h⟩ := Option.bind_eq_some_iff.1 h
      obtain ⟨hle, hrest⟩ := advance_rest h
      refine ⟨by omega, ?_⟩
      rw [hrest, show tick' - tick = (tick' - (tick + 1)) + 1 by omega, List.drop_succ_cons]
    · cases h
      exact ⟨Nat.le_refl _, by simp⟩

theorem advanceAt_eq (numTxsPerTick : List Nat) (txIndex last tick : Nat) :
    advanceAt checks numTxsPerTick txIndex last tick =
      (advance checks txIndex (numTxsPerTick.drop (tick + 1)) last tick).map Prod.snd := by
  induction last, tick using advanceAt.induct checks numTxsPerTick txIndex with
  | case1 last tick hge hlt hnone =>
    rw [advanceAt, if_pos hge, dif_pos hlt, List.drop_eq_getElem_cons hlt, advance, if_pos hge]
    simp only [hnone, Option.bind_none, Option.map_none]
  | case2 last tick hge hlt next hnext ih =>
    rw [advanceAt, if_pos hge, dif_pos hlt, List.drop_eq_getElem_cons hlt, advance, if_pos hge]
    simp only [hnext, Option.bind_some]
    exact ih
  | case3 last tick hge hout =>
    rw [advanceAt, if_pos hge, dif_neg hout, List.drop_eq_nil_of_le (by omega), advance,
      if_pos hge, Option.map_none]
  | case4 last tick hlt =>
    rw [advanceAt, if_neg hlt]
    cases numTxsPerTick.drop (tick + 1) <;> simp [advance, hlt]

/-- The items before `txIndex` stay; the rest is what the other loop returns. -/
theorem fillTicks_eq (numTxsPerTick : List Nat) :
    ∀ (todo txIndex last tick : Nat) (ticks : List Nat), ticks.length = txIndex + todo →
      fillTicks checks numTxsPerTick todo txIndex last tick ticks =
        (tickLoop checks todo txIndex (numTxsPerTick.drop (tick + 1)) last tick).map
          (ticks.take txIndex ++ ·)
  | 0, txIndex, last, tick, ticks, hlen => by
    have htake : ticks.take txIndex = ticks := List.take_of_length_le (Nat.le_of_eq hlen)
    rw [fillTicks, tickLoop, Option.map_some, List.append_nil, htake]
  | todo + 1, txIndex, last, tick, ticks, hlen => by
    simp only [fillTicks, tickLoop, advanceAt_eq]
    cases hadv : advance checks txIndex (numTxsPerTick.drop (tick + 1)) last tick with
    | none => rfl
    | some r =>
      obtain ⟨rest', last', tick'⟩ := r
      obtain ⟨hle, hrest⟩ := advance_rest hadv
      rw [List.drop_drop, show tick + 1 + (tick' - tick) = tick' + 1 by omega] at hrest
      have hset : (ticks.set txIndex tick').take (txIndex + 1) = ticks.take txIndex ++ [tick'] := by
        rw [List.take_succ_eq_append_getElem (by rw [List.length_set]; omega), List.take_set_of_le
          (Nat.le_refl _), List.getElem_set_self]
      simp only [Option.map_some, Option.bind_some]
      rw [fillTicks_eq numTxsPerTick todo (txIndex + 1) last' tick' (ticks.set txIndex tick')
        (by rw [List.length_set]; omega), hset, hrest, Option.map_map]
      congr 1
      funext rest
      simp

/-- Both forms of `find_tx_ticks` agree, panics included. -/
theorem inPlace_eq (entries : List EntryRecord) :
    findTxTicksInPlace checks entries = findTxTicks checks entries := by
  simp only [findTxTicksInPlace, findTxTicks]
  congr 1
  funext a
  split
  · rfl
  · cases hclosed : a.closed with
    | nil => rfl
    | cons last rest =>
      simp only [List.getElem?_cons_zero, Option.bind_some]
      rw [fillTicks_eq _ _ _ _ _ _ (by simp)]
      simp

/-! ## The result -/

/-- **Ticks.** When the counts sum to `N < 2 ^ 64`, the result has `N` items; item `i` is the
number of zero-count entries before the entry whose positions hold `i`. So the items do not
decrease, and 64 appears only after 64 zero-count entries. -/
theorem find_tx_ticks_exact (checks : Bool) (entries : List EntryRecord)
    (h : (countsOf entries).sum < 2 ^ 64) :
    ∃ ticks, findTxTicksInPlace checks entries = some ticks ∧
      ticks.length = (countsOf entries).sum ∧
      (∀ i < ticks.length, ∃ k < entries.length, (countsOf (entries.take k)).sum ≤ i ∧
        i < (countsOf (entries.take (k + 1))).sum ∧
        ticks[i]? = some ((entries.take k).countP (·.executedTransactionCount = 0))) ∧
      (∀ i k, (countsOf (entries.take k)).sum ≤ i → i < (countsOf (entries.take (k + 1))).sum →
        ticks[i]? = some ((entries.take k).countP (·.executedTransactionCount = 0))) ∧
      ticks.Pairwise (· ≤ ·) ∧
      ∀ i k, ticks[i]? = some 64 → (countsOf (entries.take k)).sum ≤ i →
        i < (countsOf (entries.take (k + 1))).sum →
        (entries.take k).countP (·.executedTransactionCount = 0) = 64 := by
  have hcounts : ∀ k, countsOf (entries.take k) = (countsOf entries).take k := fun k => by
    simp [countsOf, List.map_take]
  have hzero : ∀ k, (entries.take k).countP (·.executedTransactionCount = 0) =
      ((countsOf entries).take k).count 0 := fun k => by
    rw [← hcounts, countsOf, List.count, List.countP_map]
    rfl
  have hitem : ∀ i k, ((countsOf entries).take k).sum ≤ i →
      i < ((countsOf entries).take (k + 1)).sum →
      ((List.range (countsOf entries).sum).map (emptyBefore (countsOf entries)))[i]? =
        some (((countsOf entries).take k).count 0) := by
    intro i k h1 h2
    have hsplit := List.sum_take_add_sum_drop (countsOf entries) (k + 1)
    have hsum : i < (countsOf entries).sum := by omega
    rw [List.getElem?_map, List.getElem?_range hsum, Option.map_some, emptyBefore,
      chunkOf_unique _ i k h1 h2]
  refine ⟨_, (inPlace_eq entries).trans (findTxTicks_spec checks h), by simp, ?_, ?_, ?_, ?_⟩
  · intro i hi
    obtain ⟨hk, h1, h2⟩ := chunkOf_spec (countsOf entries) i (by simpa using hi)
    refine ⟨chunkOf (countsOf entries) i, by simpa [countsOf] using hk, ?_, ?_, ?_⟩
    · rw [hcounts]; exact h1
    · rw [hcounts]; exact h2
    · rw [hzero]; exact hitem i _ h1 h2
  · intro i k h1 h2
    rw [hcounts] at h1 h2
    rw [hzero]
    exact hitem i k h1 h2
  · rw [List.pairwise_map]
    exact List.pairwise_le_range.imp fun hij => emptyBefore_mono _ hij
  · intro i k h64 h1 h2
    rw [hcounts] at h1 h2
    rw [hitem i k h1 h2] at h64
    rw [hzero]
    exact Option.some.inj h64

/-- Two empty ticks, three transactions, two empty ticks, one transaction. -/
theorem find_tx_ticks_emptyTicks : ∃ ticks,
    findTxTicksInPlace true [⟨0, 0⟩, ⟨1, 0⟩, ⟨2, 3⟩, ⟨3, 0⟩, ⟨4, 0⟩, ⟨5, 1⟩] = some ticks ∧
      ticks.length = 4 ∧ ticks[3]? = some 4 ∧ ticks.Pairwise (· ≤ ·) := by
  obtain ⟨ticks, hticks, hlen, -, hitem, hmono, -⟩ := find_tx_ticks_exact true
    [⟨0, 0⟩, ⟨1, 0⟩, ⟨2, 3⟩, ⟨3, 0⟩, ⟨4, 0⟩, ⟨5, 1⟩] (by decide)
  exact ⟨ticks, hticks, hlen, hitem 3 5 (by decide) (by decide), hmono⟩

end TpuTools.Subscriber
