import ScriptValues.Text.Outline

/-! Both layouts of an outline at once. A group is written as its first item, each other one behind a
separator, and a close; a layout says what separates and closes and how the items are laid out in turn.
A separator is never the beginning of a close, so one sees where the items of a group end. -/

namespace ScriptValues.Text

namespace Outline

theorem indent_eq_self {depth : Nat} {chars : List Char} (h : '\n' ∉ chars) :
    indent depth chars = chars := by
  induction chars with
  | nil => rfl
  | cons c cs ih =>
    rw [List.mem_cons, not_or] at h
    have hc : c ≠ '\n' := fun hc => h.1 hc.symm
    have hcs := ih h.2
    simp only [indent, List.flatMap_cons, hc, if_false] at hcs ⊢
    rw [hcs]
    rfl

theorem newline_succ (depth : Nat) :
    newline (depth + 1) = newline depth ++ [' ', ' ', ' ', ' '] := by
  rw [newline, newline, Nat.mul_succ, ← List.replicate_append_replicate]
  rfl

end Outline

/-- On one line, or with one item a line at a depth. -/
inductive Layout where
  | flat
  | tall (depth : Nat)

namespace Layout

open Outline (newline)

variable {L : Layout}

def write : Layout → Outline → List Char → List Char
  | flat, o, r => o.flatOnto r
  | tall depth, o, r => o.tallOnto depth r

/-- How the items of a group are laid out. -/
def inner : Layout → Layout
  | flat => flat
  | tall depth => tall (depth + 1)

/-- What stands in front of the first item. -/
def opening : Layout → Bracket → List Char
  | flat, b => b.flat.1.toList
  | tall depth, b => b.tall.1.toList ++ newline (depth + 1)

/-- What stands between two items. -/
def separator : Layout → List Char
  | flat => [',', ' ']
  | tall depth => ',' :: newline (depth + 1)

/-- What stands behind the last item. -/
def closing : Layout → Bracket → List Char
  | flat, b => b.flat.2.toList
  | tall depth, b => ',' :: newline depth ++ b.tall.2.toList

/-- The items after the first one. -/
def othersOnto (L : Layout) : List Outline → List Char → List Char
  | [], r => r
  | o :: os, r => L.separator ++ L.inner.write o (othersOnto L os r)

theorem separator_ne_closing (L : Layout) (b : Bracket) (x y : List Char) :
    L.separator ++ x ≠ L.closing b ++ y := by
  cases L with
  | flat => cases b <;> simp [separator, closing, Bracket.flat]
  | tall depth => cases b <;> simp [separator, closing, Bracket.tall, Outline.newline_succ]

theorem exists_separator (L : Layout) : ∃ cs, L.separator = ',' :: cs := by
  cases L <;> exact ⟨_, rfl⟩

theorem exists_closing (L : Layout) (b : Bracket) :
    ∃ c cs, L.closing b = c :: cs ∧ c.isDigit = false := by
  cases L with
  | flat => cases b <;> exact ⟨_, _, rfl, rfl⟩
  | tall depth => exact ⟨',', _, rfl, rfl⟩

section Written

variable (L : Layout) (r : List Char)

theorem write_text {chars : List Char} (h : '\n' ∉ chars) : L.write (.text chars) r = chars ++ r := by
  cases L with
  | flat => rfl
  | tall depth => rw [write, Outline.tallOnto, Outline.indent_eq_self h]

theorem write_word {s : String} (h : '\n' ∉ s.toList) : L.write (.word s) r = s.toList ++ r :=
  L.write_text r h

theorem write_field (label : String) (o : Outline) :
    L.write (.field label o) r = label.toList ++ ':' :: ' ' :: L.write o r := by
  cases L <;> rfl

theorem flatItemsOnto_cons (o : Outline) (os : List Outline) :
    Outline.flatItemsOnto (o :: os) r = o.flatOnto (othersOnto .flat os r) := by
  induction os generalizing o with
  | nil => rfl
  | cons p os ih => rw [Outline.flatItemsOnto, ih]; rfl

/-- The comma that closes an item separates it from the next one. -/
theorem tallItemsOnto_eq (depth : Nat) (os : List Outline) :
    ',' :: Outline.tallItemsOnto (depth + 1) os r = othersOnto (.tall depth) os (',' :: r) := by
  induction os with
  | nil => rfl
  | cons o os ih => rw [Outline.tallItemsOnto, ih]; rfl

theorem write_group (name : String) (b : Bracket) (o : Outline) (os : List Outline) :
    L.write (.group name b (o :: os)) r =
      name.toList ++ (L.opening b ++ L.inner.write o (L.othersOnto os (L.closing b ++ r))) := by
  cases L with
  | flat => rw [write, Outline.flatOnto, flatItemsOnto_cons]; rfl
  | tall depth =>
    rw [write, Outline.tallOnto, Outline.tallItemsOnto, tallItemsOnto_eq]
    simp [opening, closing, inner, write]

theorem write_tuple (name : String) (o : Outline) : L.write (.tuple name o) r =
    name.toList ++ (L.opening .round ++ L.inner.write o (L.closing .round ++ r)) :=
  L.write_group r name .round o []

theorem write_record (name label : String) (o : Outline) : L.write (.record name [(label, o)]) r =
    name.toList ++ (L.opening .curly ++
      (label.toList ++ ':' :: ' ' :: L.inner.write o (L.closing .curly ++ r))) := by
  rw [Outline.record, List.map_cons, List.map_nil, write_group, write_field]
  rfl

theorem write_list_nil : L.write (.list []) r = '[' :: ']' :: r := by
  cases L <;> rfl

end Written

section Items

variable {α : Type} {outline : α → Outline} {as bs : List α} {r s : List Char}

/-- Items that can be read one by one can be read up to what closes them. -/
theorem othersOnto_inj {b : Bracket}
    (hread : ∀ a ∈ as, ∀ b ∈ bs, ∀ x y,
      L.inner.write (outline a) x = L.inner.write (outline b) y → a = b ∧ x = y)
    (h : L.othersOnto (as.map outline) (L.closing b ++ r) =
      L.othersOnto (bs.map outline) (L.closing b ++ s)) : as = bs ∧ r = s := by
  induction as generalizing bs with
  | nil =>
    cases bs with
    | nil => exact ⟨rfl, List.append_cancel_left h⟩
    | cons b' bs => exact absurd h.symm (L.separator_ne_closing b _ _)
  | cons a as ih =>
    cases bs with
    | nil => exact absurd h (L.separator_ne_closing b _ _)
    | cons b' bs =>
      have hitems := List.append_cancel_left h
      obtain ⟨rfl, hothers⟩ := hread a List.mem_cons_self b' List.mem_cons_self _ _ hitems
      obtain ⟨rfl, hrest⟩ := ih (fun a ha b hb => hread a (List.mem_cons_of_mem _ ha) b
        (List.mem_cons_of_mem _ hb)) hothers
      exact ⟨rfl, hrest⟩

/-- What follows the bracket of a list tells whether there is an item. -/
theorem write_list_cons_ne_nil {o : Outline} (hclose : ∀ x y, L.inner.write o x ≠ ']' :: y)
    (os : List Outline) : L.write (.list (o :: os)) r ≠ L.write (.list []) s := by
  rw [write_list_nil, Outline.list, write_group]
  cases L with
  | flat => simpa [opening, Bracket.flat] using hclose _ s
  | tall depth => simp [opening, Bracket.tall, newline]

theorem write_list_inj (hclose : ∀ a ∈ as ++ bs, ∀ x y, L.inner.write (outline a) x ≠ ']' :: y)
    (hread : ∀ a ∈ as, ∀ b ∈ bs, ∀ x y,
      L.inner.write (outline a) x = L.inner.write (outline b) y → a = b ∧ x = y)
    (h : L.write (.list (as.map outline)) r = L.write (.list (bs.map outline)) s) :
    as = bs ∧ r = s := by
  cases as with
  | nil =>
    cases bs with
    | nil =>
      rw [List.map_nil, write_list_nil, write_list_nil] at h
      simpa using h
    | cons b bs =>
      exact absurd h.symm (write_list_cons_ne_nil (hclose b (by simp)) _)
  | cons a as =>
    cases bs with
    | nil => exact absurd h (write_list_cons_ne_nil (hclose a (by simp)) _)
    | cons b bs =>
      rw [List.map_cons, List.map_cons, Outline.list, Outline.list, write_group, write_group] at h
      have hitems := List.append_cancel_left (List.append_cancel_left h)
      obtain ⟨rfl, hothers⟩ := hread a List.mem_cons_self b List.mem_cons_self _ _ hitems
      obtain ⟨rfl, hrest⟩ := othersOnto_inj (fun a ha b hb => hread a (List.mem_cons_of_mem _ ha) b
        (List.mem_cons_of_mem _ hb)) hothers
      exact ⟨rfl, hrest⟩

end Items

end Layout

namespace Outline

variable {α : Type} {outline : α → Outline} {K : α → Prop}

/-- Each of these can be told from the others by its outline in either layout, whatever comes after. -/
def Readable (outline : α → Outline) (K : α → Prop) : Prop :=
  ∀ a b, K a → K b → ∀ (L : Layout) r s, L.write (outline a) r = L.write (outline b) s → a = b ∧ r = s

theorem Readable.flat_eq_iff (h : Readable outline K) {a b : α} (ha : K a) (hb : K b) :
    (outline a).flat = (outline b).flat ↔ a = b := by
  refine ⟨fun htexts => ?_, fun hab => by rw [hab]⟩
  exact (h a b ha hb .flat [] [] (String.ofList_inj.1 htexts)).1

theorem Readable.tall_eq_iff (h : Readable outline K) {a b : α} (ha : K a) (hb : K b) :
    (outline a).tall = (outline b).tall ↔ a = b := by
  refine ⟨fun htexts => ?_, fun hab => by rw [hab]⟩
  exact (h a b ha hb (.tall 0) [] [] (String.ofList_inj.1 htexts)).1

end Outline
end ScriptValues.Text
