import Mathlib.Data.List.Dedup
import Mathlib.Data.List.Perm.Subperm

/-!
# Caches that evict the least recently used entry

A cache of bounded capacity is the list of its entries, the most recently used one first.
`ensure` puts an entry in; when the cache is full the last one has to go (`victim`). Whether
asking for an entry that is there counts as a use is a parameter, `touch`: without it the
entries leave in the order they came.

* `mem_ensure`: what is there after one insertion.
* `kept_iff_spares`: some entries outlast a series of insertions exactly if none of them is
  evicted after the last time it is asked for.
* `kept_iff_length`: when a use counts, that is so exactly if the series has no more different
  entries than fit.
-/
namespace TpuTools.Lru

variable {α : Type} [DecidableEq α]

/-- The entry `x` is there afterwards. -/
def ensure (touch : Bool) (capacity : Nat) (l : List α) (x : α) : List α :=
  if x ∈ l then if touch then x :: l.erase x else l else (x :: l).take capacity

/-- The entry that has to go for `x`. -/
def victim (capacity : Nat) (l : List α) (x : α) : Option α :=
  if x ∈ l ∨ l.length < capacity then none else l.getLast?

def ensureAll (touch : Bool) (capacity : Nat) (l xs : List α) : List α :=
  xs.foldl (ensure touch capacity) l

/-- No entry twice, and no more than fit. -/
structure Fits (capacity : Nat) (l : List α) : Prop where
  nodup : l.Nodup
  length_le : l.length ≤ capacity

/-- While the entries `xs` are asked for one after the other, none of `keep` has to go unless it
is asked for again. -/
def Spares (touch : Bool) (capacity : Nat) (keep : List α) : List α → List α → Prop
  | _, [] => True
  | l, x :: xs => (∀ v ∈ victim capacity l x, v ∈ keep → v ∈ xs) ∧
      Spares touch capacity keep (ensure touch capacity l x) xs

instance (touch : Bool) (capacity : Nat) (keep : List α) :
    (l xs : List α) → Decidable (Spares touch capacity keep l xs)
  | _, [] => .isTrue trivial
  | l, x :: xs =>
    haveI : Decidable (Spares touch capacity keep (ensure touch capacity l x) xs) :=
      instDecidableSpares touch capacity keep (ensure touch capacity l x) xs
    inferInstanceAs (Decidable (_ ∧ _))

variable {touch : Bool} {capacity : Nat} {l keep xs : List α} {x y : α}

/-! ## One insertion -/

omit [DecidableEq α] in
theorem mem_dropLast_iff (hl : l.Nodup) : y ∈ l.dropLast ↔ y ∈ l ∧ l.getLast? ≠ some y := by
  rcases List.eq_nil_or_concat l with rfl | ⟨init, z, rfl⟩
  · simp
  · rw [List.concat_eq_append] at hl ⊢
    rw [List.dropLast_concat, List.getLast?_concat, List.mem_append, List.mem_singleton]
    have hz : z ∉ init := fun hz => (List.disjoint_of_nodup_append hl) hz (List.mem_singleton.2 rfl)
    constructor
    · intro hy
      refine ⟨Or.inl hy, fun he => hz ?_⟩
      rw [Option.some.inj he]
      exact hy
    · intro ⟨hy, hne⟩
      rcases hy with hy | rfl
      · exact hy
      · exact absurd rfl hne

/-- On a miss the new entry pushes out the last one of a full cache. -/
theorem ensure_miss (hcap : 1 ≤ capacity) (hl : Fits capacity l) (hx : x ∉ l) :
    ensure touch capacity l x = x :: if l.length < capacity then l else l.dropLast := by
  unfold ensure
  rw [if_neg hx, show capacity = capacity - 1 + 1 by omega, List.take_succ_cons]
  have hlen := hl.length_le
  split
  · rw [List.take_of_length_le (by omega)]
  · rw [List.dropLast_eq_take, show l.length = capacity by omega]

theorem mem_of_victim (h : victim capacity l x = some y) : y ∈ l := by
  unfold victim at h
  split at h
  · cases h
  · exact List.mem_of_getLast? h

theorem not_mem_of_victim (h : victim capacity l x = some y) : x ∉ l := by
  unfold victim at h
  split at h
  · cases h
  · rename_i hx
    exact fun hmem => hx (Or.inl hmem)

theorem mem_ensure (hcap : 1 ≤ capacity) (hl : Fits capacity l) :
    y ∈ ensure touch capacity l x ↔ y = x ∨ (y ∈ l ∧ victim capacity l x ≠ some y) := by
  by_cases hx : x ∈ l
  · have hnone : victim capacity l x = none := if_pos (Or.inl hx)
    have hmem : y ∈ ensure touch capacity l x ↔ y = x ∨ y ∈ l := by
      unfold ensure
      rw [if_pos hx]
      split
      · rw [List.mem_cons]
        by_cases he : y = x
        · simp [he]
        · simp [he, List.mem_erase_of_ne he]
      · constructor
        · exact Or.inr
        · intro h
          rcases h with rfl | h
          · exact hx
          · exact h
    simp [hmem, hnone]
  · rw [ensure_miss hcap hl hx, List.mem_cons]
    unfold victim
    by_cases hlen : l.length < capacity
    · simp [hlen]
    · rw [if_neg hlen, if_neg (by simp [hx, hlen]), mem_dropLast_iff hl.nodup]

theorem fits_ensure (hcap : 1 ≤ capacity) (hl : Fits capacity l) :
    Fits capacity (ensure touch capacity l x) := by
  have hlen := hl.length_le
  by_cases hx : x ∈ l
  · unfold ensure
    rw [if_pos hx]
    split
    · refine ⟨(List.perm_cons_erase hx).nodup_iff.1 hl.nodup, ?_⟩
      rw [← (List.perm_cons_erase hx).length_eq]
      exact hlen
    · exact hl
  · rw [ensure_miss hcap hl hx]
    split
    · refine ⟨List.nodup_cons.2 ⟨hx, hl.nodup⟩, ?_⟩
      rw [List.length_cons]
      omega
    · refine ⟨List.nodup_cons.2 ⟨fun h => hx (List.dropLast_subset l h),
        hl.nodup.sublist (List.dropLast_sublist l)⟩, ?_⟩
      rw [List.length_cons, List.length_dropLast]
      omega

/-! ## A series of insertions -/

theorem fits_ensureAll (hcap : 1 ≤ capacity) : ∀ (xs : List α) {l : List α}, Fits capacity l →
    Fits capacity (ensureAll touch capacity l xs)
  | [], _, hl => hl
  | _ :: xs, _, hl => fits_ensureAll hcap xs (fits_ensure hcap hl)

/-- Only what is asked for comes in. -/
theorem mem_of_mem_ensureAll (hcap : 1 ≤ capacity) : ∀ (xs : List α) {l : List α},
    Fits capacity l → y ∈ ensureAll touch capacity l xs → y ∈ l ∨ y ∈ xs
  | [], _, _, h => Or.inl h
  | x :: xs, l, hl, h => by
    rcases mem_of_mem_ensureAll hcap xs (fits_ensure hcap hl) h with h | h
    · rcases (mem_ensure hcap hl).1 h with rfl | h
      · exact Or.inr List.mem_cons_self
      · exact Or.inl h.1
    · exact Or.inr (List.mem_cons_of_mem _ h)

/-- **What outlasts a series.** An entry that is evicted after its last turn is gone, and nothing
else is. -/
theorem kept_iff_spares (hcap : 1 ≤ capacity) : ∀ (xs : List α) {l : List α}, Fits capacity l →
    (∀ a ∈ keep, a ∈ l ∨ a ∈ xs) →
      ((∀ a ∈ keep, a ∈ ensureAll touch capacity l xs) ↔ Spares touch capacity keep l xs)
  | [], l, _, hin => by
    refine iff_of_true (fun a ha => ?_) trivial
    rcases hin a ha with h | h
    · exact h
    · cases h
  | x :: xs, l, hl, hin => by
    have ih := kept_iff_spares hcap xs (l := ensure touch capacity l x) (fits_ensure hcap hl)
    by_cases hspare : ∀ v ∈ victim capacity l x, v ∈ keep → v ∈ xs
    · rw [Spares, ← ih]
      · exact ⟨fun h => ⟨hspare, h⟩, fun h => h.2⟩
      · intro a ha
        rw [mem_ensure hcap hl]
        by_cases hv : victim capacity l x = some a
        · exact Or.inr (hspare a hv ha)
        · rcases hin a ha with h | h
          · exact Or.inl (Or.inr ⟨h, hv⟩)
          · rcases List.mem_cons.1 h with h | h
            · exact Or.inl (Or.inl h)
            · exact Or.inr h
    · -- the victim of `x` never comes back
      refine iff_of_false (fun hall => hspare ?_) (fun h => hspare h.1)
      intro v hv hk
      rcases mem_of_mem_ensureAll hcap xs (fits_ensure hcap hl) (hall v hk) with h | h
      · rcases (mem_ensure hcap hl).1 h with rfl | h
        · exact absurd (mem_of_victim hv) (not_mem_of_victim hv)
        · exact absurd hv h.2
      · exact h

theorem getLast?_mem_ensureAll (hcap : 1 ≤ capacity) (hl : Fits capacity l)
    (h : xs.getLast? = some x) : x ∈ ensureAll touch capacity l xs := by
  obtain ⟨init, rfl⟩ := List.getLast?_eq_some_iff.1 h
  unfold ensureAll
  rw [List.foldl_append, List.foldl_cons, List.foldl_nil]
  exact (mem_ensure hcap (fits_ensureAll hcap init hl)).2 (Or.inl rfl)

/-- What is there at the end fits. -/
theorem length_dedup_le (hcap : 1 ≤ capacity) (hl : Fits capacity l)
    (h : ∀ a ∈ xs, a ∈ ensureAll touch capacity l xs) : xs.dedup.length ≤ capacity := by
  have hsub : xs.dedup ⊆ ensureAll touch capacity l xs := fun a ha => h a (List.mem_dedup.1 ha)
  have hlen := (List.subperm_of_subset (List.nodup_dedup xs) hsub).length_le
  exact Nat.le_trans hlen (fits_ensureAll hcap xs hl).length_le

/-! ## When asking is a use -/

/-- The entries that were asked for so far come first. -/
def Recent (asked l : List α) : Prop :=
  ∃ first rest, l = first ++ rest ∧ ∀ a, a ∈ first ↔ a ∈ asked

theorem Recent.ensure {asked : List α} (hl : Fits capacity l)
    (hr : Recent asked l) (hfit : (x :: asked).dedup.length ≤ capacity) :
    Recent (x :: asked) (ensure true capacity l x) := by
  obtain ⟨first, rest, rfl, hfirst⟩ := hr
  by_cases hx : x ∈ first ++ rest
  · have hmove : Lru.ensure true capacity (first ++ rest) x = x :: (first ++ rest).erase x := by
      unfold Lru.ensure
      rw [if_pos hx, if_pos rfl]
    rw [hmove]
    by_cases hf : x ∈ first
    · refine ⟨x :: first.erase x, rest, by rw [List.erase_append_left rest hf]; rfl, fun a => ?_⟩
      by_cases he : a = x
      · simp [he]
      · simp [he, List.mem_erase_of_ne he, hfirst]
    · refine ⟨x :: first, rest.erase x, by rw [List.erase_append_right rest hf]; rfl, fun a => ?_⟩
      simp [hfirst]
  · -- the new entry and the ones asked for before still fit
    have hnodup : (x :: first).Nodup := by
      refine List.nodup_cons.2 ⟨fun h => hx (List.mem_append_left _ h), ?_⟩
      exact hl.nodup.sublist (List.sublist_append_left _ _)
    have hsub : x :: first ⊆ (x :: asked).dedup := by
      intro a ha
      rw [List.mem_dedup]
      rcases List.mem_cons.1 ha with rfl | ha
      · exact List.mem_cons_self
      · exact List.mem_cons_of_mem _ ((hfirst a).1 ha)
    have hlen := (List.subperm_of_subset hnodup hsub).length_le
    have htake : Lru.ensure true capacity (first ++ rest) x =
        (x :: first) ++ rest.take (capacity - (x :: first).length) := by
      unfold Lru.ensure
      rw [if_neg hx, ← List.cons_append, List.take_append, List.take_of_length_le (by omega)]
    exact ⟨x :: first, _, htake, fun a => by simp [hfirst]⟩

theorem mem_ensureAll_of_length (hcap : 1 ≤ capacity) : ∀ (xs : List α) {asked l : List α},
    Fits capacity l → Recent asked l → (xs.reverse ++ asked).dedup.length ≤ capacity →
      ∀ a ∈ xs.reverse ++ asked, a ∈ ensureAll true capacity l xs
  | [], asked, l, _, hr, _, a, ha => by
    obtain ⟨first, rest, rfl, hfirst⟩ := hr
    exact List.mem_append_left _ ((hfirst a).2 ha)
  | x :: xs, asked, l, hl, hr, hfit, a, ha => by
    rw [List.reverse_cons, List.append_assoc, List.singleton_append] at hfit ha
    refine mem_ensureAll_of_length hcap xs (fits_ensure hcap hl) (hr.ensure hl ?_) hfit a ha
    -- fewer different entries were asked for so far
    have hsub : (x :: asked).dedup ⊆ (xs.reverse ++ x :: asked).dedup := by
      intro b hb
      rw [List.mem_dedup] at hb ⊢
      exact List.mem_append_right _ hb
    exact Nat.le_trans (List.subperm_of_subset (List.nodup_dedup _) hsub).length_le hfit

/-- **Everything is kept exactly if it fits**, even when the last entry of the series is not to
be kept. -/
theorem kept_iff_length (hcap : 1 ≤ capacity) (hl : Fits capacity l) (hpre : keep <+: xs)
    (hone : xs.length ≤ keep.length + 1) :
    (∀ a ∈ keep, a ∈ ensureAll true capacity l xs) ↔ xs.dedup.length ≤ capacity := by
  constructor
  · intro h
    apply @length_dedup_le _ _ true _ _ _ hcap hl
    intro a ha
    obtain ⟨rest, rfl⟩ := hpre
    rcases List.mem_append.1 ha with hk | hrest
    · exact h a hk
    · -- `a` is the only entry after the ones to keep
      rw [List.length_append] at hone
      obtain ⟨b, rfl⟩ : ∃ b, rest = [b] := by
        apply List.length_eq_one_iff.1
        have := List.length_pos_of_mem hrest
        omega
      rw [List.mem_singleton.1 hrest]
      exact getLast?_mem_ensureAll hcap hl List.getLast?_concat
  · intro h a ha
    have hlen : xs.reverse.dedup.length ≤ capacity := by
      have hsub : xs.reverse.dedup ⊆ xs.dedup := by
        intro b hb
        rw [List.mem_dedup] at hb ⊢
        exact List.mem_reverse.1 hb
      exact Nat.le_trans (List.subperm_of_subset (List.nodup_dedup _) hsub).length_le h
    have hstart : Recent [] l := ⟨[], l, rfl, by simp⟩
    apply mem_ensureAll_of_length hcap xs hl hstart (by rw [List.append_nil]; exact hlen)
    rw [List.append_nil, List.mem_reverse]
    exact hpre.subset ha

end TpuTools.Lru
