import TpuTools.Core.Decimal

/-!
# Text formats without quoting

A `Format` writes values as text and reads them back. Values are put together by separators
that must not occur in what they separate: `Avoids` says that of a format, `NeverEmpty` that an
empty text is free to mean something else, an absent value or an empty list.

* `Format.injective`: different values have different texts.
* `optional`, `call`, `separated`: the ways to put formats together, with their `Avoids`
  lemmas.
* `splitOn_lines`: a text of terminated lines is its lines.
-/
namespace TpuTools.Text

/-- How values are written, and read back when they are `ok`. -/
structure Format (α : Type) where
  ok : α → Prop
  write : α → List Char
  read : List Char → Option α
  read_write : ∀ a, ok a → read (write a) = some a

namespace Format

variable {α β : Type} {F : Format α} {G : Format β} {c sep : Char}

def Avoids (F : Format α) (c : Char) : Prop := ∀ a, F.ok a → c ∉ F.write a

def NeverEmpty (F : Format α) : Prop := ∀ a, F.ok a → F.write a ≠ []

theorem injective (F : Format α) {a b : α} (ha : F.ok a) (hb : F.ok b)
    (h : F.write a = F.write b) : a = b := by
  have hread := F.read_write a ha
  rw [h, F.read_write b hb] at hread
  exact (Option.some.inj hread).symm

/-! ## Basic formats -/

/-- Strings as they are. -/
def word (ok : String → Prop) : Format String where
  ok := ok
  write := String.toList
  read cs := some (String.ofList cs)
  read_write s _ := by rw [String.ofList_toList]

/-- Unsigned integers of `w` bits in decimal. -/
def decimal (w : Nat) : Format Nat where
  ok n := n < 2 ^ w
  write := Nat.toDigits 10
  read := Decimal.parseUnsigned w
  read_write _ h := Decimal.parseUnsigned_toDigits h

theorem decimal_avoids {w : Nat} (hc : c.isDigit = false) : (decimal w).Avoids c :=
  fun n _ => Decimal.not_mem_toDigits n hc

theorem decimal_neverEmpty {w : Nat} : (decimal w).NeverEmpty := fun _ _ => Nat.toDigits_ne_nil

/-- The values of a list, each by its own text. -/
def oneOf (all : List α) (text : α → String)
    (hinj : ∀ a ∈ all, ∀ b ∈ all, text a = text b → a = b) : Format α where
  ok a := a ∈ all
  write a := (text a).toList
  read cs := all.find? fun a => (text a).toList = cs
  read_write a ha := by
    cases hfind : all.find? fun b => (text b).toList = (text a).toList with
    | none => exact absurd (decide_eq_true rfl) (List.find?_eq_none.1 hfind a ha)
    | some b =>
      have htext : (text b).toList = (text a).toList := by
        simpa using List.find?_some hfind
      rw [hinj b (List.mem_of_find?_eq_some hfind) a ha (String.toList_inj.1 htext)]

/-! ## Absent values -/

/-- An absent value is the empty text. -/
def optional (F : Format α) (h : F.NeverEmpty) : Format (Option α) where
  ok o := ∀ a ∈ o, F.ok a
  write o := (o.map F.write).getD []
  read cs := if cs = [] then some none else (F.read cs).map some
  read_write o ho := by
    cases o with
    | none => rfl
    | some a =>
      have ha := ho a rfl
      show (if F.write a = [] then some none else (F.read (F.write a)).map some) = _
      rw [if_neg (h a ha), F.read_write a ha]
      rfl

theorem optional_avoids {h : F.NeverEmpty} (hF : F.Avoids c) : (optional F h).Avoids c := by
  intro o ho
  cases o with
  | none => exact List.not_mem_nil
  | some a => exact hF a (ho a rfl)

/-! ## A name and its argument -/

/-- `name(argument)` -/
def call (F : Format α) (G : Format β) (hF : F.Avoids '(') (hG : G.Avoids '(')
    (hG' : G.Avoids ')') : Format (α × β) where
  ok p := F.ok p.1 ∧ G.ok p.2
  write p := F.write p.1 ++ '(' :: (G.write p.2 ++ [')'])
  read cs :=
    match cs.splitOn '(' with
    | [name, rest] =>
      match rest.splitOn ')' with
      | [argument, []] => (F.read name).bind fun a => (G.read argument).map fun b => (a, b)
      | _ => none
    | _ => none
  read_write := by
    intro ⟨a, b⟩ ⟨ha, hb⟩
    have hrest : '(' ∉ G.write b ++ [')'] := by
      rw [List.mem_append, List.mem_singleton]
      intro h
      rcases h with h | h
      · exact hG b hb h
      · cases h
    have hsplit : (F.write a ++ '(' :: (G.write b ++ [')'])).splitOn '(' =
        [F.write a, G.write b ++ [')']] := by
      rw [List.splitOn_append_cons_self_of_not_mem (hF a ha), List.splitOn_eq_singleton hrest]
    have hsplit' : (G.write b ++ [')']).splitOn ')' = [G.write b, []] := by
      rw [List.splitOn_append_cons_self_of_not_mem (hG' b hb), List.splitOn_nil]
    simp only [hsplit, hsplit', F.read_write a ha, G.read_write b hb, Option.bind_some,
      Option.map_some]

theorem call_avoids {hF : F.Avoids '('} {hG : G.Avoids '('} {hG' : G.Avoids ')'}
    (h : F.Avoids c) (h' : G.Avoids c) (ho : c ≠ '(') (hc : c ≠ ')') :
    (call F G hF hG hG').Avoids c := by
  intro ⟨a, b⟩ ⟨ha, hb⟩ hmem
  rcases List.mem_append.1 hmem with hmem | hmem
  · exact h a ha hmem
  · rcases List.mem_cons.1 hmem with hmem | hmem
    · exact ho hmem
    · rcases List.mem_append.1 hmem with hmem | hmem
      · exact h' b hb hmem
      · exact hc (List.mem_singleton.1 hmem)

theorem call_neverEmpty {hF : F.Avoids '('} {hG : G.Avoids '('} {hG' : G.Avoids ')'} :
    (call F G hF hG hG').NeverEmpty := by
  intro p _ h
  have hmem : '(' ∈ F.write p.1 ++ '(' :: (G.write p.2 ++ [')']) := by simp
  rw [show F.write p.1 ++ '(' :: (G.write p.2 ++ [')']) = [] from h] at hmem
  cases hmem

/-! ## Lists -/

theorem mapM_read (F : Format α) : ∀ l : List α, (∀ a ∈ l, F.ok a) →
    (l.map F.write).mapM F.read = some l
  | [], _ => rfl
  | a :: l, h => by
    have ih := mapM_read F l fun b hb => h b (List.mem_cons_of_mem _ hb)
    rw [List.map_cons, List.mapM_cons, F.read_write a (h a List.mem_cons_self), ih]
    rfl

theorem mem_intercalate {α : Type} {x sep : α} : ∀ {l : List (List α)},
    x ∈ [sep].intercalate l → x = sep ∨ ∃ part ∈ l, x ∈ part
  | [], h => by cases h
  | [part], h => by
    rw [List.intercalate_singleton] at h
    exact Or.inr ⟨part, List.mem_cons_self, h⟩
  | part :: part' :: l, h => by
    rw [List.intercalate_cons_cons, List.mem_append, List.mem_append] at h
    rcases h with (h | h) | h
    · exact Or.inr ⟨part, List.mem_cons_self, h⟩
    · exact Or.inl (List.mem_singleton.1 h)
    · rcases mem_intercalate h with h | ⟨q, hq, h⟩
      · exact Or.inl h
      · exact Or.inr ⟨q, List.mem_cons_of_mem _ hq, h⟩

/-- The texts with a separator between them; no text is the empty list. -/
def separated (sep : Char) (F : Format α) (hne : F.NeverEmpty) (hsep : F.Avoids sep) :
    Format (List α) where
  ok l := ∀ a ∈ l, F.ok a
  write l := [sep].intercalate (l.map F.write)
  read cs := if cs = [] then some [] else (cs.splitOn sep).mapM F.read
  read_write := by
    intro l hl
    cases l with
    | nil => rfl
    | cons a l =>
      have hcs : [sep].intercalate ((a :: l).map F.write) ≠ [] := by
        have ha := hne a (hl a List.mem_cons_self)
        rw [List.map_cons]
        cases hmap : l.map F.write with
        | nil => rw [List.intercalate_singleton]; exact ha
        | cons b m => rw [List.intercalate_cons_cons]; simp [ha]
      have hsplit : ([sep].intercalate ((a :: l).map F.write)).splitOn sep =
          (a :: l).map F.write := by
        apply List.splitOn_intercalate
        · intro part hpart
          obtain ⟨b, hb, rfl⟩ := List.mem_map.1 hpart
          exact hsep b (hl b hb)
        · simp
      rw [if_neg hcs, hsplit, mapM_read F _ hl]

theorem separated_avoids {hne : F.NeverEmpty} {hsep : F.Avoids sep} (hF : F.Avoids c)
    (hc : c ≠ sep) : (separated sep F hne hsep).Avoids c := by
  intro l hl hmem
  rcases mem_intercalate hmem with h | ⟨part, hpart, h⟩
  · exact hc h
  · obtain ⟨a, ha, rfl⟩ := List.mem_map.1 hpart
    exact hF a (hl a ha) h

end Format

/-! ## Lines -/

/-- Every line with its terminator. -/
def lines (terminator : Char) (ls : List (List Char)) : List Char :=
  ls.flatMap fun line => line ++ [terminator]

theorem splitOn_lines {terminator : Char} : ∀ {ls : List (List Char)},
    (∀ line ∈ ls, terminator ∉ line) → (lines terminator ls).splitOn terminator = ls ++ [[]]
  | [], _ => List.splitOn_nil _
  | line :: ls, h => by
    have ih := splitOn_lines fun line' h' => h line' (List.mem_cons_of_mem _ h')
    unfold lines at ih ⊢
    rw [List.flatMap_cons, List.append_assoc, List.singleton_append,
      List.splitOn_append_cons_self_of_not_mem (h line List.mem_cons_self), ih]
    rfl

end TpuTools.Text
