import Mathlib.Data.List.Perm.Basic
import ScriptValues.Proofs.Equality
import ScriptValues.Value.Scan

/-! Scans with pairwise unequal keys. Every operation keeps the keys unequal, and none sees the order
of the entries. -/

namespace ScriptValues
namespace Scan

variable {α : Type} {es es' : List (Value × α)} {key : Value}

theorem find?_eq (s : Scan α) (key : Value) :
    s.find? key = (s.entries.find? (·.1 == key)).map (·.2) := by
  rw [find?]
  induction s.entries with
  | nil => rfl
  | cons e es ih =>
    cases he : e.1 == key with
    | true => simp only [List.findSome?_cons, List.find?_cons, he, if_true, Option.map_some]
    | false => simp only [List.findSome?_cons, List.find?_cons, he, if_false, Bool.false_eq_true, ih]

/-- Unequal keys do not equal one third. -/
theorem not_beq_both {d e key : Value} (hne : (d == e) = false) (hd : d == key) : ¬ e == key := by
  intro he
  rw [BEq.trans hd (BEq.symm he)] at hne
  cases hne

theorem beq_eq_false {d k key : Value} (hne : (d == k) = false) (hd : d == key) :
    (k == key) = false :=
  Bool.eq_false_iff.2 (not_beq_both hne hd)

/-- No two of the keys are equal. -/
def Distinct (es : List (Value × α)) : Prop :=
  es.Pairwise fun e e' => (e.1 == e'.1) = false

theorem Distinct.perm (h : Distinct es) (p : es.Perm es') : Distinct es' :=
  p.pairwise h fun hne => by rwa [BEq.comm]

theorem Distinct.not_both (h : Distinct es) (key : Value) :
    es.Pairwise fun e e' => (e.1 == key) = true → (e'.1 == key) = true → False := by
  refine h.imp ?_
  intro e e' hne he he'
  exact not_beq_both hne he he'

theorem Distinct.find?_eq_some_iff (h : Distinct es) {e : Value × α} :
    es.find? (·.1 == key) = some e ↔ e ∈ es ∧ e.1 == key := by
  induction h with
  | nil => simp
  | @cons d es hd _ ih =>
    cases hk : d.1 == key with
    | true =>
      simp only [List.find?_cons, hk, Option.some.injEq, List.mem_cons]
      constructor
      · rintro rfl
        exact ⟨Or.inl rfl, hk⟩
      · rintro ⟨rfl | hmem, he⟩
        · rfl
        · exact absurd he (not_beq_both (hd e hmem) hk)
    | false =>
      simp only [List.find?_cons, hk, ih, List.mem_cons]
      constructor
      · rintro ⟨hmem, he⟩
        exact ⟨Or.inr hmem, he⟩
      · rintro ⟨rfl | hmem, he⟩
        · rw [hk] at he
          cases he
        · exact ⟨hmem, he⟩

theorem Distinct.find?_perm (h : Distinct es) (p : es.Perm es') (key : Value) :
    es.find? (·.1 == key) = es'.find? (·.1 == key) := by
  apply Option.ext
  intro e
  rw [h.find?_eq_some_iff, (h.perm p).find?_eq_some_iff, p.mem_iff]

/-- Putting takes out the entry under an equal key, if any, and adds one that keeps its key. -/
theorem put_perm (key : Value) (a : α) (es : List (Value × α)) :
    (put key a es).Perm
      (((es.find? (·.1 == key)).elim key (·.1), a) :: es.eraseP (·.1 == key)) := by
  induction es with
  | nil => exact List.Perm.refl _
  | cons e es ih =>
    cases he : e.1 == key with
    | true => simp only [put, he, if_true, List.find?_cons, List.eraseP_cons, cond_true,
        Option.elim_some, List.Perm.refl]
    | false =>
      simp only [put, he, if_false, Bool.false_eq_true, List.find?_cons, List.eraseP_cons, cond_false]
      exact (ih.cons e).trans (List.Perm.swap _ _ _)

theorem Distinct.put_congr (h : Distinct es) (p : es.Perm es') (key : Value) (a : α) :
    (put key a es).Perm (put key a es') := by
  refine (put_perm key a es).trans (List.Perm.trans ?_ (put_perm key a es').symm)
  rw [h.find?_perm p]
  exact (p.eraseP _ (h.not_both key)).cons _

theorem Distinct.eraseP_congr (h : Distinct es) (p : es.Perm es') (key : Value) :
    (es.eraseP (·.1 == key)).Perm (es'.eraseP (·.1 == key)) :=
  p.eraseP _ (h.not_both key)

section Absent

variable {rest : List (Value × α)} (h : ∀ e ∈ rest, (e.1 == key) = false)
include h

theorem find?_append_of_absent :
    (es ++ rest).find? (·.1 == key) = es.find? (·.1 == key) := by
  have hrest : rest.find? (·.1 == key) = none :=
    List.find?_eq_none.2 fun e he => by rw [h e he]; exact Bool.false_ne_true
  rw [List.find?_append, hrest, Option.or_none]

theorem eraseP_append_of_absent :
    (es ++ rest).eraseP (·.1 == key) = es.eraseP (·.1 == key) ++ rest := by
  have hrest : rest.eraseP (·.1 == key) = rest :=
    List.eraseP_of_forall_not fun e he => by rw [h e he]; exact Bool.false_ne_true
  induction es with
  | nil => exact hrest
  | cons e es ih =>
    rw [List.cons_append, List.eraseP_cons, List.eraseP_cons, ih]
    cases e.1 == key <;> rfl

theorem put_append_of_absent (a : α) : (put key a (es ++ rest)).Perm (put key a es ++ rest) := by
  refine (put_perm key a _).trans (List.Perm.trans ?_ ((put_perm key a es).symm.append_right rest))
  rw [find?_append_of_absent h, eraseP_append_of_absent h]
  exact List.Perm.refl _

end Absent

/-- The keys after putting: the same if an equal one was there, else one more at the end. -/
theorem keys_put (key : Value) (a : α) (es : List (Value × α)) :
    (put key a es).map (·.1) =
      if es.any (·.1 == key) then es.map (·.1) else es.map (·.1) ++ [key] := by
  induction es with
  | nil => rfl
  | cons e es ih =>
    cases he : e.1 == key with
    | true => simp [put, he]
    | false =>
      simp only [put, he, if_false, Bool.false_eq_true, List.map_cons, ih, List.any_cons,
        Bool.false_or, List.cons_append]
      split <;> rfl

theorem mem_keys_put {a : α} {e : Value × α} (h : e ∈ put key a es) :
    e.1 = key ∨ ∃ d ∈ es, d.1 = e.1 := by
  have hkey := List.mem_map_of_mem (f := (·.1)) h
  rw [keys_put] at hkey
  split at hkey
  · exact Or.inr (List.mem_map.1 hkey)
  · rcases List.mem_append.1 hkey with hold | hnew
    · exact Or.inr (List.mem_map.1 hold)
    · exact Or.inl (List.mem_singleton.1 hnew)

theorem distinct_iff_keys :
    Distinct es ↔ (es.map (·.1)).Pairwise fun k k' => (k == k') = false := by
  rw [List.pairwise_map, Distinct]

theorem Distinct.put (h : Distinct es) (key : Value) (a : α) : Distinct (put key a es) := by
  rw [distinct_iff_keys] at h ⊢
  rw [keys_put]
  split
  · exact h
  · next hany =>
    refine List.pairwise_append.2 ⟨h, List.pairwise_singleton _ _, ?_⟩
    intro k hk k' hk'
    obtain ⟨e, he, rfl⟩ := List.mem_map.1 hk
    obtain rfl := List.mem_singleton.1 hk'
    rw [List.any_eq_true, not_exists] at hany
    exact Bool.eq_false_iff.2 fun heq => hany e ⟨he, heq⟩

theorem Distinct.eraseP (h : Distinct es) (key : Value) : Distinct (es.eraseP (·.1 == key)) :=
  h.sublist List.eraseP_sublist

theorem find?_insert (s : Scan α) (k : Value) (a : α) (key : Value) :
    (s.insert k a).find? key = if k == key then some a else s.find? key := by
  rw [find?_eq, find?_eq, insert]
  induction s.entries with
  | nil => cases hk : k == key <;> simp [Scan.put, hk]
  | cons e es ih =>
    cases he : e.1 == k with
    | true =>
      have hkey : (e.1 == key) = (k == key) := BEq.congr_left he
      cases hk : k == key <;> simp [Scan.put, he, hkey, hk]
    | false =>
      cases hk : e.1 == key with
      | true =>
        have hne := beq_eq_false he hk
        simp [Scan.put, he, hk, hne]
      | false => simpa [Scan.put, he, hk] using ih

theorem find?_erase {s : Scan α} (h : Distinct s.entries) (k key : Value) :
    (s.erase k).find? key = if k == key then none else s.find? key := by
  rw [find?_eq, find?_eq, erase]
  generalize s.entries = es at h
  induction h with
  | nil => simp
  | @cons e es hd _ ih =>
    cases he : e.1 == k with
    | true =>
      have hkey : (e.1 == key) = (k == key) := BEq.congr_left he
      cases hk : k == key with
      | true =>
        have hnone : es.find? (·.1 == key) = none := by
          refine List.find?_eq_none.2 fun d hmem hdk => ?_
          exact not_beq_both (hd d hmem) (BEq.trans he hk) hdk
        simp [he, hnone]
      | false => simp [he, hkey, hk]
    | false =>
      cases hk : e.1 == key with
      | true =>
        have hne := beq_eq_false he hk
        simp [he, hk, hne]
      | false => simpa [he, hk] using ih

end Scan
end ScriptValues
