import Mathlib.Data.List.Basic

/-!
# Lists of entries with distinct keys

What is read off each entry of a list (`filterMap`), when the entry under one key is changed or
removed: the rest of the list is not touched.

* `filterMap_change`, `filterMap_remove`.
-/
namespace TpuTools

variable {α β κ : Type} {key : α → κ}

/-- The other entries have other keys. -/
theorem split_of_mem {l : List α} (hnd : (l.map key).Nodup) {a : α} (ha : a ∈ l) :
    ∃ before after, l = before ++ a :: after ∧ ∀ x ∈ before ++ after, key x ≠ key a := by
  obtain ⟨before, after, rfl⟩ := List.append_of_mem ha
  refine ⟨before, after, rfl, ?_⟩
  rw [List.map_append, List.map_cons, List.perm_middle.nodup_iff, ← List.map_append] at hnd
  intro x hx he
  exact (List.nodup_cons.1 hnd).1 (he ▸ List.mem_map_of_mem hx)

variable [DecidableEq κ]

theorem filterMap_change {l : List α} (hnd : (l.map key).Nodup) {a : α} (ha : a ∈ l)
    (change : α → α) (read : α → Option β) : ∃ rest,
      (l.filterMap read).Perm ((read a).toList ++ rest) ∧
      ((l.map fun x => if key x = key a then change x else x).filterMap read).Perm
        ((read (change a)).toList ++ rest) := by
  obtain ⟨before, after, rfl, hother⟩ := split_of_mem hnd ha
  have hsame : ∀ xs : List α, (∀ x ∈ xs, key x ≠ key a) →
      (xs.map fun x => if key x = key a then change x else x) = xs := by
    intro xs hxs
    refine (List.map_congr_left ?_).trans (List.map_id xs)
    intro x hx
    exact if_neg (hxs x hx)
  have hmid : ∀ b : α, ((before ++ b :: after).filterMap read).Perm
      ((read b).toList ++ (before.filterMap read ++ after.filterMap read)) := by
    intro b
    rw [List.filterMap_append, List.filterMap_cons]
    cases read b with
    | none => exact List.Perm.refl _
    | some y => exact List.perm_middle
  refine ⟨before.filterMap read ++ after.filterMap read, hmid a, ?_⟩
  rw [List.map_append, List.map_cons, if_pos rfl,
    hsame before fun x hx => hother x (List.mem_append_left _ hx),
    hsame after fun x hx => hother x (List.mem_append_right _ hx)]
  exact hmid (change a)

theorem filterMap_remove {l : List α} (hnd : (l.map key).Nodup) {a : α} (ha : a ∈ l)
    (read : α → Option β) : (l.filterMap read).Perm
      ((read a).toList ++ (l.filter (key · ≠ key a)).filterMap read) := by
  obtain ⟨before, after, rfl, hother⟩ := split_of_mem hnd ha
  have hfilter : (before ++ a :: after).filter (key · ≠ key a) = before ++ after := by
    rw [List.filter_append, List.filter_cons_of_neg (by simp), ← List.filter_append,
      List.filter_eq_self]
    intro x hx
    exact decide_eq_true (hother x hx)
  rw [hfilter, List.filterMap_append, List.filterMap_cons, List.filterMap_append]
  cases read a with
  | none => exact List.Perm.refl _
  | some y => exact List.perm_middle

end TpuTools
