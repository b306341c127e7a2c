import Mathlib.Data.List.Basic

/-!
# Merging lists from the front

Several lists are emptied from the front, one item at a time and in any order among them, into
one list; more lists may come later. `Merged` says what is left of each and what came out.

* `Merged.nil`, `Merged.spawn`, `Merged.take`: the steps.
* `Merged.perm`, `Merged.sublist`: at the end nothing is lost or doubled, and every list is
  there in its own order.
* `Merged.filter_eq`: what only one of the lists has comes out as it was.
-/
namespace TpuTools

variable {α : Type}

/-- Of the lists `sources`, `rest` is left, and `out` was taken. -/
structure Merged (sources rest : List (List α)) (out : List α) : Prop where
  length : rest.length = sources.length
  parts : ∀ (i : Nat) (source left : List α), sources[i]? = some source → rest[i]? = some left →
    ∃ taken, source = taken ++ left ∧ taken.Sublist out
  items : (out ++ rest.flatten).Perm sources.flatten

/-- Taking the head of one list. -/
theorem flatten_set_perm {rest : List (List α)} {i : Nat} {x : α} {xs : List α}
    (hi : rest[i]? = some (x :: xs)) : rest.flatten.Perm (x :: (rest.set i xs).flatten) := by
  induction rest generalizing i with
  | nil => cases hi
  | cons l ls ih =>
    cases i with
    | zero =>
      rw [List.getElem?_cons_zero, Option.some.injEq] at hi
      subst hi
      exact List.Perm.refl _
    | succ i =>
      rw [List.getElem?_cons_succ] at hi
      rw [List.set_cons_succ, List.flatten_cons, List.flatten_cons]
      exact ((ih hi).append_left l).trans List.perm_middle

namespace Merged

variable {sources rest : List (List α)} {out : List α}

theorem nil : Merged ([] : List (List α)) [] [] := ⟨rfl, by simp, List.Perm.refl _⟩

theorem spawn (h : Merged sources rest out) (new : List (List α)) :
    Merged (sources ++ new) (rest ++ new) out := by
  refine ⟨?_, ?_, ?_⟩
  · rw [List.length_append, List.length_append, h.length]
  · intro i source left hs hl
    rcases Nat.lt_or_ge i sources.length with hi | hi
    · rw [List.getElem?_append_left hi] at hs
      rw [List.getElem?_append_left (by rw [h.length]; exact hi)] at hl
      exact h.parts i source left hs hl
    · rw [List.getElem?_append_right hi] at hs
      rw [List.getElem?_append_right (by rw [h.length]; exact hi), h.length, hs] at hl
      cases hl
      exact ⟨[], rfl, List.nil_sublist _⟩
  · rw [List.flatten_append, List.flatten_append, ← List.append_assoc]
    exact h.items.append_right _

theorem take (h : Merged sources rest out) {i : Nat} {x : α} {xs : List α}
    (hi : rest[i]? = some (x :: xs)) : Merged sources (rest.set i xs) (out ++ [x]) := by
  refine ⟨by rw [List.length_set, h.length], ?_, ?_⟩
  · intro j source left hs hl
    by_cases hij : i = j
    · subst hij
      have hlt : i < rest.length := (List.getElem?_eq_some_iff.1 hi).1
      rw [List.getElem?_set_self hlt, Option.some.injEq] at hl
      subst hl
      obtain ⟨taken, he, hsub⟩ := h.parts i source (x :: xs) hs hi
      refine ⟨taken ++ [x], ?_, hsub.append (List.Sublist.refl _)⟩
      rw [he, List.append_assoc, List.singleton_append]
    · rw [List.getElem?_set_ne hij] at hl
      obtain ⟨taken, he, hsub⟩ := h.parts j source left hs hl
      exact ⟨taken, he, hsub.trans (List.sublist_append_left _ _)⟩
  · refine List.Perm.trans ?_ h.items
    rw [List.append_assoc, List.singleton_append]
    exact (flatten_set_perm hi).symm.append_left out

/-- Everything was taken. -/
theorem perm (h : Merged sources rest out) (hdone : ∀ left ∈ rest, left = []) :
    out.Perm sources.flatten := by
  have hflat : rest.flatten = [] := List.flatten_eq_nil_iff.2 hdone
  have hitems := h.items
  rw [hflat, List.append_nil] at hitems
  exact hitems

/-- Every list in its own order. -/
theorem sublist (h : Merged sources rest out) (hdone : ∀ left ∈ rest, left = [])
    {source : List α} (hs : source ∈ sources) : source.Sublist out := by
  obtain ⟨i, hlt, rfl⟩ := List.mem_iff_getElem.1 hs
  have hlt' : i < rest.length := by rw [h.length]; exact hlt
  obtain ⟨taken, he, hsub⟩ := h.parts i _ _ (List.getElem?_eq_getElem hlt)
    (List.getElem?_eq_getElem hlt')
  rw [hdone _ (List.getElem_mem hlt'), List.append_nil] at he
  rw [he]
  exact hsub

/-- Items that only one of the lists has come out in its order. -/
theorem filter_eq (h : Merged sources rest out) (hdone : ∀ left ∈ rest, left = [])
    {p : α → Bool} {before after : List (List α)} {source : List α}
    (hs : sources = before ++ source :: after) (hown : ∀ x ∈ source, p x = true)
    (hother : ∀ l ∈ before ++ after, ∀ x ∈ l, p x = false) : out.filter p = source := by
  have hnone : ∀ ls : List (List α), (∀ l ∈ ls, ∀ x ∈ l, p x = false) →
      ls.flatten.filter p = [] := by
    intro ls hls
    rw [List.filter_eq_nil_iff]
    intro x hx
    obtain ⟨l, hl, hxl⟩ := List.mem_flatten.1 hx
    rw [hls l hl x hxl]
    exact Bool.false_ne_true
  have hall : source.filter p = source := List.filter_eq_self.2 hown
  have hperm : (out.filter p).Perm source := by
    have hp := (h.perm hdone).filter p
    rw [hs, List.flatten_append, List.flatten_cons, List.filter_append, List.filter_append,
      hnone before fun l hl => hother l (List.mem_append_left _ hl),
      hnone after fun l hl => hother l (List.mem_append_right _ hl), hall, List.nil_append,
      List.append_nil] at hp
    exact hp
  have hsub : source.Sublist (out.filter p) := by
    have hmem : source ∈ sources := by
      rw [hs]
      exact List.mem_append_right _ List.mem_cons_self
    have hfilter := (h.sublist hdone hmem).filter p
    rw [hall] at hfilter
    exact hfilter
  exact (hsub.eq_of_length hperm.length_eq.symm).symm

end Merged

end TpuTools
