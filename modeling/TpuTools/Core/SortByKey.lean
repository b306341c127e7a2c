import Mathlib.Data.List.Sort

/-!
# Stable sorting by a key

`sortByKey key l` is `l.sort_by_key(key)`: sorted by `key`, elements of equal key in their
old order.

* `sortByKey_lt`, `eq_of_perm_of_lt`: with distinct keys the result is the only strictly sorted
  arrangement, so it does not depend on the order of `l`.
* `filter_key_lt`: in a strictly sorted list the elements below one of its members are the
  ones before it.
-/
namespace TpuTools

variable {α κ : Type*} [LinearOrder κ] {key : α → κ}

def sortByKey (key : α → κ) (l : List α) : List α := l.insertionSort fun a b => key a ≤ key b

theorem sortByKey_perm (key : α → κ) (l : List α) : (sortByKey key l).Perm l :=
  List.perm_insertionSort _ l

@[simp] theorem mem_sortByKey {l : List α} {a : α} : a ∈ sortByKey key l ↔ a ∈ l :=
  (sortByKey_perm key l).mem_iff

theorem sortByKey_le (key : α → κ) (l : List α) :
    (sortByKey key l).Pairwise fun a b => key a ≤ key b := by
  have : Std.Total fun a b : α => key a ≤ key b := ⟨fun a b => le_total (key a) (key b)⟩
  have : IsTrans α fun a b : α => key a ≤ key b := ⟨fun _ _ _ h1 h2 => le_trans h1 h2⟩
  exact List.pairwise_insertionSort _ l

theorem sortByKey_lt {l : List α} (h : (l.map key).Nodup) :
    (sortByKey key l).Pairwise fun a b => key a < key b := by
  have hnd : ((sortByKey key l).map key).Nodup :=
    ((sortByKey_perm key l).map key).nodup_iff.2 h
  have hne : (sortByKey key l).Pairwise fun a b => key a ≠ key b := List.pairwise_map.1 hnd
  exact (sortByKey_le key l).imp₂ (fun _ _ hle hne => lt_of_le_of_ne hle hne) hne

/-- Two strictly sorted arrangements of the same elements are equal. -/
theorem eq_of_perm_of_lt {l l' : List α} (hp : l.Perm l')
    (hl : l.Pairwise fun a b => key a < key b) (hl' : l'.Pairwise fun a b => key a < key b) :
    l = l' := by
  refine hp.eq_of_pairwise ?_ hl hl'
  intro a b _ _ hab hba
  exact absurd (lt_trans hab hba) (lt_irrefl _)

theorem filter_key_lt {before after : List α} {a : α}
    (h : (before ++ a :: after).Pairwise fun x y => key x < key y) :
    (before ++ a :: after).filter (fun x => key x < key a) = before := by
  obtain ⟨-, h2, h3⟩ := List.pairwise_append.1 h
  obtain ⟨h4, -⟩ := List.pairwise_cons.1 h2
  have hb : before.filter (fun x => key x < key a) = before :=
    List.filter_eq_self.2 fun x hx => by simpa using h3 x hx a List.mem_cons_self
  have ha : (a :: after).filter (fun x => key x < key a) = [] := by
    refine List.filter_eq_nil_iff.2 fun x hx => ?_
    rcases List.mem_cons.1 hx with rfl | hx
    · simp
    · simpa using le_of_lt (h4 x hx)
  rw [List.filter_append, hb, ha, List.append_nil]

end TpuTools
