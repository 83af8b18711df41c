import Mathlib.Data.List.Induction
import ScriptValues.Proofs.Scanning
import ScriptValues.Value.Table

/-! A table holds what a scan over all its entries would hold. The two differ in the order of the
entries only; and the bucket of a key holds every key equal to it, as long as equal keys have equal
hash codes. -/

namespace ScriptValues
namespace Table

variable {n : Nat} {assign : HashCode → Fin n} {α : Type}

/-- Every key is in the bucket of its hash code. -/
def Placed (t : Table assign α) : Prop :=
  ∀ (i : Nat) (b : Scan α), t.buckets.toList[i]? = some b →
    ∀ e ∈ b.entries, (assign e.1.hashCode).val = i

/-- The entries outside the bucket of a key. -/
def others (t : Table assign α) (key : Value) : List (Value × α) :=
  (t.buckets.toList.eraseIdx (assign key.hashCode).val).flatMap (·.entries)

theorem getElem?_bucket (t : Table assign α) (key : Value) :
    t.buckets.toList[(assign key.hashCode).val]? = some (t.bucket key) := by
  rw [List.getElem?_eq_getElem (by simp), Vector.getElem_toList]
  rfl

theorem toList_modify (t : Table assign α) (key : Value) (f : Scan α → Scan α) :
    (t.modify key f).buckets.toList =
      t.buckets.toList.set (assign key.hashCode).val (f (t.bucket key)) :=
  Vector.toList_set (assign key.hashCode).isLt

theorem bucket_modify (t : Table assign α) (key : Value) (f : Scan α → Scan α) :
    (t.modify key f).bucket key = f (t.bucket key) := by
  have hget := (t.modify key f).getElem?_bucket key
  rw [toList_modify, List.getElem?_set_self (by simp)] at hget
  exact (Option.some.inj hget).symm

theorem others_modify (t : Table assign α) (key : Value) (f : Scan α → Scan α) :
    (t.modify key f).others key = t.others key := by
  rw [others, toList_modify, List.eraseIdx_set_eq, others]

theorem entries_perm (t : Table assign α) (key : Value) :
    t.entries.Perm ((t.bucket key).entries ++ t.others key) := by
  obtain ⟨hlt, hget⟩ := List.getElem?_eq_some_iff.1 (t.getElem?_bucket key)
  have hperm := List.getElem_cons_eraseIdx_perm hlt
  rw [hget] at hperm
  exact hperm.symm.flatMap_right _

theorem entries_modify_perm (t : Table assign α) (key : Value) (f : Scan α → Scan α) :
    (t.modify key f).entries.Perm ((f (t.bucket key)).entries ++ t.others key) := by
  have hperm := (t.modify key f).entries_perm key
  rwa [bucket_modify, others_modify] at hperm

namespace Placed

variable {t : Table assign α}

theorem empty : (Table.empty : Table assign α).Placed := by
  intro i b hb e he
  rw [Table.empty, Vector.toList_replicate] at hb
  rw [(List.mem_replicate.1 (List.mem_of_getElem? hb)).2] at he
  cases he

theorem bucket (h : t.Placed) {key : Value} {e : Value × α} (he : e ∈ (t.bucket key).entries) :
    assign e.1.hashCode = assign key.hashCode :=
  Fin.ext (h _ _ (t.getElem?_bucket key) e he)

theorem others (h : t.Placed) {key : Value} {e : Value × α} (he : e ∈ t.others key) :
    assign e.1.hashCode ≠ assign key.hashCode := by
  obtain ⟨b, hb, he⟩ := List.mem_flatMap.1 he
  obtain ⟨i, hi, hat⟩ := List.mem_eraseIdx_iff_getElem?.1 hb
  intro heq
  rw [← heq, h i b hat e he] at hi
  exact hi rfl

theorem modify (h : t.Placed) {key : Value} {f : Scan α → Scan α}
    (hf : ∀ e ∈ (f (t.bucket key)).entries, assign e.1.hashCode = assign key.hashCode) :
    (t.modify key f).Placed := by
  intro i b hb e he
  rw [toList_modify, List.getElem?_set] at hb
  split at hb
  · next hi =>
    split at hb
    · cases hb
      rw [← hi, hf e he]
    · cases hb
  · exact h i b hb e he

end Placed

/-- The table and the scan hold the same entries, and each holds them as it should. -/
structure Mirrors (t : Table assign α) (s : Scan α) : Prop where
  placed : t.Placed
  perm : t.entries.Perm s.entries
  distinct : Scan.Distinct s.entries

namespace Mirrors

variable {t : Table assign α} {s : Scan α} {key : Value}

theorem empty : (Table.empty : Table assign α).Mirrors Scan.empty where
  placed := Placed.empty
  perm := by
    have hnil : (Table.empty : Table assign α).entries = [] := by
      rw [entries, Table.empty, Vector.toList_replicate, List.flatMap_eq_nil_iff]
      intro b hb
      rw [(List.mem_replicate.1 hb).2]
      rfl
    rw [hnil]
    exact List.Perm.refl _
  distinct := List.Pairwise.nil

theorem size_eq (h : t.Mirrors s) : t.size = s.size :=
  h.perm.length_eq

theorem bucket_others_perm (h : t.Mirrors s) (key : Value) :
    s.entries.Perm ((t.bucket key).entries ++ t.others key) :=
  h.perm.symm.trans (t.entries_perm key)

section Hashed

/- What the bucket rests on: a stored key that equals the key at hand has its hash code. -/
variable (hhash : ∀ e ∈ s.entries, e.1 == key → e.1.hashCode = key.hashCode)
include hhash

theorem absent_others (h : t.Mirrors s) : ∀ e ∈ t.others key, (e.1 == key) = false := by
  intro e he
  have hmem := (h.bucket_others_perm key).mem_iff.2 (List.mem_append_right _ he)
  rw [← Bool.not_eq_true]
  intro heq
  exact h.placed.others he (congrArg assign (hhash e hmem heq))

theorem find?_eq (h : t.Mirrors s) : t.find? key = s.find? key := by
  have habsent := h.absent_others hhash
  rw [find?, Scan.find?_eq, Scan.find?_eq, h.distinct.find?_perm (h.bucket_others_perm key),
    Scan.find?_append_of_absent habsent]

theorem insert (h : t.Mirrors s) (a : α) : (t.insert key a).Mirrors (s.insert key a) where
  placed := by
    refine h.placed.modify fun e he => ?_
    rcases Scan.mem_keys_put he with hkey | ⟨d, hd, hkey⟩
    · rw [hkey]
    · rw [← hkey]
      exact h.placed.bucket hd
  perm := by
    have habsent := h.absent_others hhash
    have hput := h.distinct.put_congr (h.bucket_others_perm key) key a
    exact (t.entries_modify_perm key _).trans
      ((Scan.put_append_of_absent habsent a).symm.trans hput.symm)
  distinct := h.distinct.put key a

theorem erase (h : t.Mirrors s) : (t.erase key).Mirrors (s.erase key) where
  placed := h.placed.modify fun e he => h.placed.bucket (List.mem_of_mem_eraseP he)
  perm := by
    have habsent := h.absent_others hhash
    have herase := h.distinct.eraseP_congr (h.bucket_others_perm key) key
    rw [Scan.eraseP_append_of_absent habsent] at herase
    exact (t.entries_modify_perm key _).trans herase.symm
  distinct := h.distinct.eraseP key

end Hashed
end Mirrors

theorem keys_empty : (Table.empty : Table assign α).keys = [] :=
  List.map_eq_nil_iff.2 Mirrors.empty.perm.eq_nil

section Keys

variable {t : Table assign α} {v key : Value}

theorem contains_eq_any (t : Table assign α) (key : Value) :
    t.contains key = (t.bucket key).entries.any (·.1 == key) := by
  rw [contains, find?, Scan.find?_eq, Option.isSome_map, List.isSome_find?]

/-- A key of the table is in the bucket of the key at hand or in another one. -/
theorem mem_keys_iff (key : Value) :
    v ∈ t.keys ↔ v ∈ (t.bucket key).entries.map (·.1) ∨ v ∈ (t.others key).map (·.1) := by
  rw [keys, ((t.entries_perm key).map (·.1)).mem_iff, List.map_append, List.mem_append]

theorem mem_keys_modify {f : Scan α → Scan α} (h : v ∈ (t.modify key f).keys) :
    v ∈ (f (t.bucket key)).entries.map (·.1) ∨ v ∈ t.keys := by
  rw [mem_keys_iff key, bucket_modify, others_modify] at h
  exact h.imp_right fun hv => (mem_keys_iff key).2 (Or.inr hv)

/-- A key that is inserted stays out if an equal one is there. -/
theorem mem_keys_insert {a : α} (h : v ∈ (t.insert key a).keys) :
    v ∈ t.keys ∨ v = key ∧ t.contains key = false := by
  rcases mem_keys_modify h with hv | hv
  · rw [Scan.insert, Scan.keys_put] at hv
    split at hv
    · exact Or.inl ((mem_keys_iff key).2 (Or.inl hv))
    · next hany =>
      rcases List.mem_append.1 hv with hv | hv
      · exact Or.inl ((mem_keys_iff key).2 (Or.inl hv))
      · refine Or.inr ⟨List.mem_singleton.1 hv, ?_⟩
        rw [contains_eq_any]
        exact Bool.eq_false_iff.2 hany
  · exact Or.inl hv

theorem mem_keys_insert_self (h : t.contains key = false) (a : α) : key ∈ (t.insert key a).keys := by
  rw [contains_eq_any] at h
  rw [mem_keys_iff key, insert, bucket_modify, Scan.insert, Scan.keys_put, h]
  exact Or.inl (List.mem_append_right _ List.mem_cons_self)

theorem contains_empty (key : Value) : (Table.empty : Table assign α).contains key = false := by
  rw [contains, Mirrors.empty.find?_eq (by intro e he; cases he)]
  rfl

theorem mem_keys_erase (h : v ∈ (t.erase key).keys) : v ∈ t.keys := by
  rcases mem_keys_modify h with hv | hv
  · exact (mem_keys_iff key).2 (Or.inl ((List.eraseP_sublist.map _).mem hv))
  · exact hv

/-- Of equal values the set keeps the first. -/
theorem mem_keys_ofList {vs : List Value} (h : v ∈ (ofList vs : Table assign Unit).keys) :
    ∃ before later, vs = before ++ v :: later ∧
      (ofList before : Table assign Unit).contains v = false := by
  induction vs using List.reverseRecOn with
  | nil =>
    rw [ofList, List.foldl_nil, keys_empty] at h
    cases h
  | append_singleton vs u ih =>
    rw [ofList, List.foldl_append] at h
    rcases mem_keys_insert h with hv | ⟨rfl, habsent⟩
    · obtain ⟨before, later, rfl, habsent⟩ := ih hv
      exact ⟨before, later ++ [u], List.append_assoc _ _ _, habsent⟩
    · exact ⟨vs, [], rfl, habsent⟩

end Keys
end Table
end ScriptValues
