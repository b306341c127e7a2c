import Mathlib.Algebra.BigOperators.Group.List.Basic
import Mathlib.Algebra.Ring.Nat
import TpuTools.Core.SortByKey

/-!
# Positions in a row of chunks

Chunks of the sizes `sizes` stand side by side and cover the positions
`0, ..., sizes.sum - 1`; `chunkOf sizes i` is the number of the chunk position `i` lies in.
A chunk of size 0 covers nothing, but it counts as a chunk.

* `chunkOf_spec`, `chunkOf_unique`: the chunk of `i` is the one whose prefix sums enclose `i`.
* `chunkOf_merge`: joining the first two chunks shifts the number by one.
* `groups` joins the chunks between two empty ones; `chunkOf_groups`: the group of a
  position is the number of empty chunks before its chunk (`emptyBefore`).
* `emptyBefore_sortByKey`: when the chunks are ordered by a key, all of this can be said
  without the order, by comparing keys.
-/
namespace TpuTools.Chunks

def chunkOf : List Nat → Nat → Nat
  | [], _ => 0
  | n :: ns, i => if i < n then 0 else chunkOf ns (i - n) + 1

theorem chunkOf_cons_lt {n i : Nat} (ns : List Nat) (h : i < n) : chunkOf (n :: ns) i = 0 :=
  if_pos h

theorem chunkOf_cons_ge {n i : Nat} (ns : List Nat) (h : n ≤ i) :
    chunkOf (n :: ns) i = chunkOf ns (i - n) + 1 :=
  if_neg (by omega)

theorem chunkOf_spec : ∀ (sizes : List Nat) (i : Nat), i < sizes.sum →
    chunkOf sizes i < sizes.length ∧ (sizes.take (chunkOf sizes i)).sum ≤ i ∧
      i < (sizes.take (chunkOf sizes i + 1)).sum
  | [], i, h => by simp at h
  | n :: ns, i, h => by
    rcases Nat.lt_or_ge i n with hlt | hge
    · simp [chunkOf_cons_lt ns hlt, hlt]
    · simp only [List.sum_cons] at h
      obtain ⟨h1, h2, h3⟩ := chunkOf_spec ns (i - n) (by omega)
      rw [chunkOf_cons_ge ns hge]
      simp only [List.length_cons, List.take_succ_cons, List.sum_cons]
      omega

theorem chunkOf_unique : ∀ (sizes : List Nat) (i k : Nat), (sizes.take k).sum ≤ i →
    i < (sizes.take (k + 1)).sum → chunkOf sizes i = k
  | [], i, k, _, h => by simp at h
  | n :: ns, i, 0, _, h => by
    simp only [Nat.zero_add, List.take_succ_cons, List.take_zero, List.sum_cons, List.sum_nil] at h
    exact chunkOf_cons_lt ns (by omega)
  | n :: ns, i, k + 1, h1, h2 => by
    simp only [List.take_succ_cons, List.sum_cons] at h1 h2
    rw [chunkOf_cons_ge ns (by omega), chunkOf_unique ns (i - n) k (by omega) (by omega)]

theorem chunkOf_mono : ∀ (sizes : List Nat) {i j : Nat}, i ≤ j →
    chunkOf sizes i ≤ chunkOf sizes j
  | [], _, _, _ => Nat.le_refl _
  | n :: ns, i, j, h => by
    rcases Nat.lt_or_ge i n with hlt | hge
    · rw [chunkOf_cons_lt ns hlt]
      exact Nat.zero_le _
    · rw [chunkOf_cons_ge ns hge, chunkOf_cons_ge ns (Nat.le_trans hge h)]
      exact Nat.succ_le_succ (chunkOf_mono ns (by omega))

/-- Past the first chunk, joining the first two moves every number down by one. -/
theorem chunkOf_merge {n i : Nat} (m : Nat) (ns : List Nat) (h : n ≤ i) :
    chunkOf (n :: m :: ns) i = chunkOf ((n + m) :: ns) i + 1 := by
  rw [chunkOf_cons_ge _ h]
  rcases Nat.lt_or_ge i (n + m) with hlt | hge
  · rw [chunkOf_cons_lt ns hlt, chunkOf_cons_lt ns (by omega)]
  · rw [chunkOf_cons_ge ns hge, chunkOf_cons_ge ns (by omega), Nat.sub_sub]

/-- The number of empty chunks before the chunk of position `i`. -/
def emptyBefore (sizes : List Nat) (i : Nat) : Nat := (sizes.take (chunkOf sizes i)).count 0

theorem emptyBefore_mono (sizes : List Nat) {i j : Nat} (h : i ≤ j) :
    emptyBefore sizes i ≤ emptyBefore sizes j :=
  (List.take_sublist_take_left (chunkOf_mono sizes h)).count_le 0

theorem emptyBefore_zero_cons (ns : List Nat) (i : Nat) :
    emptyBefore (0 :: ns) i = emptyBefore ns i + 1 := by
  unfold emptyBefore
  rw [chunkOf_cons_ge ns (Nat.zero_le i)]
  simp

theorem emptyBefore_cons_lt {n i : Nat} (ns : List Nat) (h : i < n) :
    emptyBefore (n :: ns) i = 0 := by
  unfold emptyBefore
  rw [chunkOf_cons_lt ns h]
  simp

theorem emptyBefore_cons_ge {n i : Nat} (ns : List Nat) (hn : n ≠ 0) (h : n ≤ i) :
    emptyBefore (n :: ns) i = emptyBefore ns (i - n) := by
  unfold emptyBefore
  rw [chunkOf_cons_ge ns h]
  simp [hn]

/-- The sizes of the groups that the empty chunks close, `cur` being the size of the
group still open; a last group that nothing closes is dropped when it is empty. -/
def groups : Nat → List Nat → List Nat
  | cur, [] => if 0 < cur then [cur] else []
  | cur, n :: ns => if n = 0 then cur :: groups 0 ns else groups (cur + n) ns

theorem groups_sum : ∀ (sizes : List Nat) (cur : Nat), (groups cur sizes).sum = cur + sizes.sum
  | [], cur => by
    unfold groups
    split
    · simp
    · simp; omega
  | n :: ns, cur => by
    unfold groups
    split
    · rename_i hn
      simp [groups_sum ns 0, hn]
    · simp [groups_sum ns (cur + n), Nat.add_assoc]

/-- **Groups.** The group a position lies in is the number of empty chunks before it. -/
theorem chunkOf_groups : ∀ (sizes : List Nat) (cur i : Nat), i < cur + sizes.sum →
    chunkOf (groups cur sizes) i = if i < cur then 0 else emptyBefore sizes (i - cur)
  | [], cur, i, h => by
    simp only [List.sum_nil, Nat.add_zero] at h
    have hcur : 0 < cur := by omega
    simp [groups, hcur, h, chunkOf]
  | n :: ns, cur, i, h => by
    simp only [List.sum_cons] at h
    unfold groups
    by_cases hn : n = 0
    · subst hn
      rw [if_pos rfl]
      rcases Nat.lt_or_ge i cur with hlt | hge
      · rw [chunkOf_cons_lt _ hlt, if_pos hlt]
      · have ih := chunkOf_groups ns 0 (i - cur) (by omega)
        simp only [Nat.not_lt_zero, if_false, Nat.sub_zero] at ih
        rw [chunkOf_cons_ge _ hge, if_neg (by omega), ih, emptyBefore_zero_cons]
    · rw [if_neg hn, chunkOf_groups ns (cur + n) i (by omega)]
      rcases Nat.lt_or_ge i cur with hlt | hge
      · rw [if_pos hlt, if_pos (by omega)]
      · rw [if_neg (show ¬ i < cur by omega)]
        rcases Nat.lt_or_ge i (cur + n) with hlt' | hge'
        · rw [if_pos hlt', emptyBefore_cons_lt ns (by omega)]
        · rw [if_neg (by omega), emptyBefore_cons_ge ns hn (by omega), Nat.sub_sub]

/-! ## Chunks ordered by a key -/

section Keyed

variable {α κ : Type*} [LinearOrder κ] (key : α → κ) (size : α → Nat)

/-- The chunks of smaller key. -/
def below (l : List α) (a : α) : List α := l.filter fun x => key x < key a

/-- The chunk `a` covers position `i`. -/
def Covers (l : List α) (a : α) (i : Nat) : Prop :=
  ((below key l a).map size).sum ≤ i ∧ i < ((below key l a).map size).sum + size a

/-- The number of empty chunks of smaller key. -/
def emptyBelow (l : List α) (a : α) : Nat := ((below key l a).map size).count 0

theorem below_perm {l l' : List α} (h : l.Perm l') (a : α) :
    (below key l a).Perm (below key l' a) :=
  h.filter _

theorem covers_perm {l l' : List α} (h : l.Perm l') (a : α) (i : Nat) :
    Covers key size l a i ↔ Covers key size l' a i := by
  unfold Covers
  rw [((below_perm key h a).map size).sum_eq]

theorem emptyBelow_perm {l l' : List α} (h : l.Perm l') (a : α) :
    emptyBelow key size l a = emptyBelow key size l' a :=
  ((below_perm key h a).map size).count_eq 0

/-- In a strictly sorted row the chunks below its `k`-th are the first `k`. -/
theorem below_getElem {l : List α} (hl : l.Pairwise fun a b => key a < key b) {k : Nat}
    (hk : k < l.length) : below key l l[k] = l.take k := by
  have hsplit : l = l.take k ++ l[k] :: l.drop (k + 1) := by
    rw [← List.drop_eq_getElem_cons hk, List.take_append_drop]
  have h := filter_key_lt (hsplit ▸ hl)
  rwa [← hsplit] at h

theorem covers_getElem {l : List α} (hl : l.Pairwise fun a b => key a < key b) {k : Nat}
    (hk : k < l.length) (i : Nat) :
    Covers key size l l[k] i ↔
      ((l.map size).take k).sum ≤ i ∧ i < ((l.map size).take (k + 1)).sum := by
  unfold Covers
  rw [below_getElem key hl hk, List.take_succ_eq_append_getElem (by simpa using hk)]
  simp

/-- At most one chunk covers a position. -/
theorem covers_unique {l : List α} (h : (l.map key).Nodup) {a b : α} (ha : a ∈ l) (hb : b ∈ l)
    {i : Nat} (hca : Covers key size l a i) (hcb : Covers key size l b i) : a = b := by
  have hp := sortByKey_perm key l
  have hl := sortByKey_lt h
  obtain ⟨j, hj, rfl⟩ := List.getElem_of_mem (hp.symm.subset ha)
  obtain ⟨k, hk, rfl⟩ := List.getElem_of_mem (hp.symm.subset hb)
  rw [← covers_perm key size hp, covers_getElem key size hl hj] at hca
  rw [← covers_perm key size hp, covers_getElem key size hl hk] at hcb
  have hjk : j = k := by
    rw [← chunkOf_unique _ i j hca.1 hca.2, ← chunkOf_unique _ i k hcb.1 hcb.2]
  subst hjk
  rfl

/-- **Keyed chunks.** After sorting, the chunk of a position is the one that covers it by
keys, and the empty chunks before it are those of smaller key. -/
theorem emptyBefore_sortByKey {l : List α} (h : (l.map key).Nodup) {i : Nat}
    (hi : i < (l.map size).sum) :
    ∃ a ∈ l, Covers key size l a i ∧
      emptyBefore ((sortByKey key l).map size) i = emptyBelow key size l a := by
  have hp := sortByKey_perm key l
  have hl := sortByKey_lt h
  have hsum : i < ((sortByKey key l).map size).sum := by rwa [(hp.map size).sum_eq]
  obtain ⟨hk, h1, h2⟩ := chunkOf_spec _ i hsum
  have hk' : chunkOf ((sortByKey key l).map size) i < (sortByKey key l).length := by
    simpa using hk
  refine ⟨(sortByKey key l)[chunkOf ((sortByKey key l).map size) i], ?_, ?_, ?_⟩
  · exact hp.subset (List.getElem_mem hk')
  · rw [← covers_perm key size hp, covers_getElem key size hl hk']
    exact ⟨h1, h2⟩
  · unfold emptyBefore
    rw [← emptyBelow_perm key size hp]
    unfold emptyBelow
    rw [below_getElem key hl hk', List.map_take]

end Keyed

end TpuTools.Chunks
