import Mathlib.Data.List.Basic

/-!
# Cyclic iteration over a list

`Cycle` is the iterator `slice.iter().cycle()`: what is left of the current round, and the
slice to start the next one from. Handing out consecutive stretches of a cycle is safe as
long as the stretches in use together do not go round once.

* `Cycle.At xs n c`: the iterator `c` over `xs` after `n` calls of `next`.
* `At.next`: the `n`-th call returns the element at `n % length`; `At.skip` is `skip(m)`.
* `span_inj`: two stretches of `w` elements, fewer than `L / w` stretches apart, share no
  position of a cycle of length `L`.
-/
namespace TpuTools

/-- `slice.iter().cycle()` -/
structure Cycle (α : Type) where
  orig : List α
  rest : List α
  deriving DecidableEq

namespace Cycle

variable {α : Type}

def ofList (xs : List α) : Cycle α := ⟨xs, xs⟩

/-- `Cycle::next`: an exhausted round is started again, which yields nothing only when
the slice is empty. -/
def next (c : Cycle α) : Option (α × Cycle α) :=
  match c.rest with
  | a :: rest => some (a, { c with rest := rest })
  | [] =>
    match c.orig with
    | a :: rest => some (a, { c with rest := rest })
    | [] => none

/-- The index in the slice of what the next call of `next` returns. -/
def position (c : Cycle α) : Nat :=
  match c.rest with
  | [] => 0
  | _ :: _ => c.orig.length - c.rest.length

/-- `skip(n)`: the first `n` elements are dropped. -/
def skip : Nat → Cycle α → Cycle α
  | 0, c => c
  | n + 1, c =>
    match c.next with
    | some (_, c') => skip n c'
    | none => c

/-- `c` is the cycle over `xs` after `n` calls of `next`. At the end of a round nothing is
left, or (before the first call) everything. -/
structure At (xs : List α) (n : Nat) (c : Cycle α) : Prop where
  orig : c.orig = xs
  rest : c.rest = xs.drop (n % xs.length) ∨ (n % xs.length = 0 ∧ c.rest = [])

theorem At.ofList (xs : List α) : At xs 0 (ofList xs) :=
  ⟨rfl, .inl (by simp [Cycle.ofList])⟩

/-- Only the place in the round matters. -/
theorem At.of_mod {xs : List α} {n m : Nat} {c : Cycle α} (h : At xs n c)
    (he : n % xs.length = m % xs.length) : At xs m c := by
  obtain ⟨h1, h2⟩ := h
  rw [he] at h2
  exact ⟨h1, h2⟩

theorem At.position {xs : List α} {n : Nat} {c : Cycle α} (hne : xs ≠ []) (h : At xs n c) :
    c.position = n % xs.length := by
  have hlt : n % xs.length < xs.length := Nat.mod_lt n (List.length_pos_iff.2 hne)
  unfold Cycle.position
  obtain ⟨h1, h2 | ⟨h0, h2⟩⟩ := h
  · rw [h1, h2]
    have hlen : (xs.drop (n % xs.length)).length = xs.length - n % xs.length :=
      List.length_drop
    split
    · rename_i hnil
      rw [hnil] at hlen
      simp only [List.length_nil] at hlen
      omega
    · rw [hlen]
      omega
  · rw [h2, h0]

/-- What is left after an element of the round was taken. -/
theorem At.of_drop {xs : List α} {n : Nat} (hlt : n % xs.length < xs.length) :
    At xs (n + 1) ⟨xs, xs.drop (n % xs.length + 1)⟩ := by
  refine ⟨rfl, ?_⟩
  rcases Nat.lt_or_ge (n % xs.length + 1) xs.length with h | h
  · left
    rw [← Nat.mod_add_mod, Nat.mod_eq_of_lt h]
  · right
    have he : n % xs.length + 1 = xs.length := by omega
    rw [← Nat.mod_add_mod, he, Nat.mod_self]
    exact ⟨rfl, List.drop_length⟩

theorem At.next {xs : List α} {n : Nat} {c : Cycle α} (hne : xs ≠ []) (h : At xs n c) :
    ∃ a c', c.next = some (a, c') ∧ xs[n % xs.length]? = some a ∧ At xs (n + 1) c' := by
  have hlt : n % xs.length < xs.length := Nat.mod_lt n (List.length_pos_iff.2 hne)
  have hdrop := List.drop_eq_getElem_cons hlt
  refine ⟨xs[n % xs.length], ⟨xs, xs.drop (n % xs.length + 1)⟩, ?_,
    List.getElem?_eq_getElem hlt, .of_drop hlt⟩
  obtain ⟨h1, h2 | ⟨h0, h2⟩⟩ := h
  · unfold Cycle.next
    rw [h2, hdrop]
    simp [h1]
  · unfold Cycle.next
    rw [h2, h1]
    cases xs with
    | nil => exact absurd rfl hne
    | cons x xs =>
      simp only [List.length_cons] at h0
      simp [h0]

theorem At.skip {xs : List α} (hne : xs ≠ []) (m : Nat) :
    ∀ {n : Nat} {c : Cycle α}, At xs n c → At xs (n + m) (c.skip m) := by
  induction m with
  | zero => exact fun h => h
  | succ m ih =>
    intro n c h
    obtain ⟨a, c', hn, -, h'⟩ := h.next hne
    simp only [Cycle.skip, hn]
    rw [show n + (m + 1) = n + 1 + m by omega]
    exact ih h'

/-! ## Stretches of a cycle -/

/-- The positions of the `g`-th stretch of `w` consecutive elements. -/
def span (L w g : Nat) : List Nat := (List.range w).map fun j => (w * g + j) % L

@[simp] theorem length_span (L w g : Nat) : (span L w g).length = w := by simp [span]

theorem getElem?_span {L w g j : Nat} (hj : j < w) : (span L w g)[j]? = some ((w * g + j) % L) := by
  simp [span, hj]

/-- Elements of a cycle less than one round apart are at different positions. -/
theorem mod_inj_of_lt {L a b : Nat} (hab : a ≤ b) (hlt : b < a + L) (h : a % L = b % L) :
    a = b := by
  have hd : L ∣ b - a := Nat.dvd_of_mod_eq_zero (Nat.sub_mod_eq_zero_of_mod_eq h.symm)
  have hz : b - a = 0 := Nat.eq_zero_of_dvd_of_lt hd (by omega)
  omega

/-- Two of fewer than `L / w` stretches in a row: the same position is the same element of
the same stretch. -/
theorem span_inj {L w g1 g2 j1 j2 : Nat} (hle : g1 ≤ g2) (hlt : g2 < g1 + L / w)
    (h1 : j1 < w) (h2 : j2 < w) (h : (w * g1 + j1) % L = (w * g2 + j2) % L) :
    g1 = g2 ∧ j1 = j2 := by
  have hround : w * (L / w) ≤ L := Nat.mul_div_le L w
  have hnext : w * (g2 + 1) ≤ w * (g1 + L / w) := Nat.mul_le_mul_left w hlt
  rw [Nat.mul_add, Nat.mul_add, Nat.mul_one] at hnext
  have heq : w * g1 + j1 = w * g2 + j2 := by
    rcases Nat.le_total (w * g1 + j1) (w * g2 + j2) with hab | hab
    · exact mod_inj_of_lt hab (by omega) h
    · have hmono : w * g1 ≤ w * g2 := Nat.mul_le_mul_left w hle
      exact (mod_inj_of_lt hab (by omega) h.symm).symm
  have hg : g1 = g2 := by
    rcases Nat.lt_or_ge g1 g2 with hg | hg
    · have hstep : w * (g1 + 1) ≤ w * g2 := Nat.mul_le_mul_left w hg
      rw [Nat.mul_add, Nat.mul_one] at hstep
      omega
    · omega
  subst hg
  exact ⟨rfl, by omega⟩

end Cycle

end TpuTools
