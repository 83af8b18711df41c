/-! Things under names. A name holds one thing at a time. -/

namespace ScriptValues

structure Store (α : Type) where
  entries : List (String × α)
  nodup : (entries.map (·.1)).Nodup

namespace Store

variable {α : Type}

def empty : Store α :=
  ⟨[], List.nodup_nil⟩

def get? (s : Store α) (name : String) : Option α :=
  s.entries.lookup name

def contains (s : Store α) (name : String) : Bool :=
  s.entries.any (·.1 == name)

def items (s : Store α) : List α :=
  s.entries.map (·.2)

theorem nodup_filter (s : Store α) (p : String × α → Bool) :
    ((s.entries.filter p).map (·.1)).Nodup :=
  s.nodup.sublist (List.filter_sublist.map _)

def erase (s : Store α) (name : String) : Store α :=
  ⟨s.entries.filter (·.1 != name), s.nodup_filter _⟩

theorem not_mem_erase (s : Store α) (name : String) : name ∉ (s.erase name).entries.map (·.1) := by
  simp [erase]

def insert (s : Store α) (name : String) (a : α) : Store α :=
  ⟨(name, a) :: (s.erase name).entries, List.nodup_cons.2 ⟨s.not_mem_erase name, (s.erase name).nodup⟩⟩

/-- Without a name the store stays as it is. -/
def keep (s : Store α) (name : Option String) (a : α) : Store α :=
  match name with
  | some name => s.insert name a
  | none => s

theorem lookup_filter_ne (es : List (String × α)) {a b : String} (h : b ≠ a) :
    (es.filter (·.1 != a)).lookup b = es.lookup b := by
  induction es with
  | nil => rfl
  | cons e es ih =>
    obtain ⟨k, v⟩ := e
    by_cases hk : k = a
    · subst hk
      simp [List.lookup_cons, ih, beq_false_of_ne h]
    · simp only [List.filter_cons, bne_iff_ne, ne_eq, hk, not_false_eq_true, if_true, List.lookup_cons, ih]

theorem lookup_filter_self (es : List (String × α)) (a : String) :
    (es.filter (·.1 != a)).lookup a = none := by
  rw [List.lookup_eq_none_iff]
  intro e he
  have hne := (List.mem_filter.1 he).2
  rw [bne_comm] at hne
  exact hne

theorem get?_erase (s : Store α) (a b : String) :
    (s.erase a).get? b = if b = a then none else s.get? b := by
  split
  · next h => subst h; exact lookup_filter_self _ _
  · next h => exact lookup_filter_ne _ h

theorem get?_insert (s : Store α) (a b : String) (x : α) :
    (s.insert a x).get? b = if b = a then some x else s.get? b := by
  simp only [get?, insert, List.lookup_cons]
  split
  · next h => simp_all
  · next h =>
    have h : b ≠ a := by simpa using h
    rw [if_neg h]
    exact lookup_filter_ne _ h

end Store
end ScriptValues
