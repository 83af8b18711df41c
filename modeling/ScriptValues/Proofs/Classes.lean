import Mathlib.Data.Finset.Card
import ScriptValues.Proofs.Serving

/-! Sets of values are sets of classes of equal values. A table keeps one key of each class, whichever
came first, and its operations are those on the finite sets of the classes. -/

namespace ScriptValues

namespace Value

def setoid : Setoid Value where
  r v w := v == w
  iseqv := ⟨beq_refl, beq_symm, beq_trans⟩

/-- All the values that are equal to one. -/
abbrev Class : Type :=
  Quotient setoid

def toClass (v : Value) : Class :=
  Quotient.mk setoid v

theorem toClass_eq_iff {v w : Value} : v.toClass = w.toClass ↔ v == w :=
  Quotient.eq

instance : DecidableEq Class :=
  @Quotient.decidableEq _ setoid fun v w => inferInstanceAs (Decidable ((v == w) = true))

def classes (vs : List Value) : Finset Class :=
  (vs.map toClass).toFinset

@[simp] theorem mem_classes {vs : List Value} {c : Class} :
    c ∈ classes vs ↔ ∃ v ∈ vs, v.toClass = c := by
  simp [classes]

theorem classes_subset_iff {vs ws : List Value} :
    classes vs ⊆ classes ws ↔ ∀ v ∈ vs, ∃ w ∈ ws, v == w := by
  constructor
  · intro h v hv
    obtain ⟨w, hw, heq⟩ := mem_classes.1 (h (mem_classes.2 ⟨v, hv, rfl⟩))
    exact ⟨w, hw, BEq.symm (toClass_eq_iff.1 heq)⟩
  · intro h c hc
    obtain ⟨v, hv, rfl⟩ := mem_classes.1 hc
    obtain ⟨w, hw, heq⟩ := h v hv
    exact mem_classes.2 ⟨w, hw, toClass_eq_iff.2 (BEq.symm heq)⟩

end Value

namespace Table

variable {n : Nat} {assign : HashCode → Fin n}

theorem entries_filter {α : Type} (t : Table assign α) (p : Value × α → Bool) :
    (t.filter p).entries = t.entries.filter p := by
  simp only [entries, filter, Vector.toList_map, List.flatMap_map, List.filter_flatMap]
  rfl

theorem keys_filter {α : Type} (t : Table assign α) (q : Value → Bool) :
    (t.filter fun e => q e.1).keys = t.keys.filter q := by
  rw [keys, entries_filter, keys, List.filter_map]
  rfl

variable {K : Value → Prop} {s : Scan Unit} {t a b : Table assign Unit} {key : Value}

/-- The classes of the keys. -/
def classes (t : Table assign Unit) : Finset Value.Class :=
  Value.classes t.keys

/-- Every key is in its bucket, no two are equal, and all are of one sort. -/
def Sound (K : Value → Prop) (t : Table assign Unit) : Prop :=
  t.MirrorsOver K ⟨t.entries⟩

theorem MirrorsOver.sound (h : t.MirrorsOver K s) : t.Sound K where
  placed := h.placed
  perm := List.Perm.refl _
  distinct := h.distinct.perm h.perm.symm
  keys e he := h.keys e (h.perm.mem_iff.1 he)

namespace Sound

theorem empty : (Table.empty : Table assign Unit).Sound K :=
  MirrorsOver.empty.sound

theorem mono {L : Value → Prop} (h : t.Sound K) (hKL : ∀ v, K v → L v) : t.Sound L where
  toMirrors := h.toMirrors
  keys e he := hKL _ (h.keys e he)

theorem of_mem_keys (h : t.Sound K) (hkey : key ∈ t.keys) : K key := by
  obtain ⟨e, he, rfl⟩ := List.mem_map.1 hkey
  exact h.keys e he

theorem keys_apart (h : t.Sound K) : t.keys.Pairwise fun k k' => (k == k') = false :=
  Scan.distinct_iff_keys.1 h.distinct

theorem card_classes (h : t.Sound K) : t.classes.card = t.size := by
  have hnodup : (t.keys.map Value.toClass).Nodup := by
    refine List.pairwise_map.2 (h.keys_apart.imp fun hne heq => ?_)
    rw [Value.toClass_eq_iff.1 heq] at hne
    cases hne
  rw [classes, Value.classes, List.toFinset_card_of_nodup hnodup, List.length_map, keys,
    List.length_map, size]

theorem filter (h : t.Sound K) (p : Value × Unit → Bool) : (t.filter p).Sound K where
  placed := by
    intro i bucket hbucket e he
    rw [Table.filter, Vector.toList_map, List.getElem?_map] at hbucket
    obtain ⟨bucket, hget, rfl⟩ := Option.map_eq_some_iff.1 hbucket
    exact h.placed i bucket hget e (List.mem_of_mem_filter he)
  perm := List.Perm.refl _
  distinct := by
    have hdistinct := h.distinct.sublist (List.filter_sublist (p := p))
    rwa [← entries_filter] at hdistinct
  keys e he := by
    rw [entries_filter] at he
    exact h.keys e (List.mem_of_mem_filter he)

theorem inter (h : a.Sound K) (b : Table assign Unit) : (a.inter b).Sound K :=
  h.filter _

theorem diff (h : a.Sound K) (b : Table assign Unit) : (a.diff b).Sound K :=
  h.filter _

/-- Keeping the keys that are told by their classes. -/
theorem classes_filter (h : t.Sound K) (q : Value → Bool) {p : Value.Class → Prop} [DecidablePred p]
    (hq : ∀ v, K v → (q v ↔ p v.toClass)) :
    (t.filter fun e => q e.1).classes = t.classes.filter p := by
  ext c
  rw [classes, keys_filter, Value.mem_classes, Finset.mem_filter, classes, Value.mem_classes]
  constructor
  · rintro ⟨v, hv, rfl⟩
    obtain ⟨hv, hqv⟩ := List.mem_filter.1 hv
    exact ⟨⟨v, hv, rfl⟩, (hq v (h.of_mem_keys hv)).1 hqv⟩
  · rintro ⟨⟨v, hv, rfl⟩, hp⟩
    exact ⟨v, List.mem_filter.2 ⟨hv, (hq v (h.of_mem_keys hv)).2 hp⟩, rfl⟩

section Hashed

/- As for a single lookup: equal keys of the sort have equal hash codes. -/
variable (hK : ∀ v u, K v → K u → v == u → v.hashCode = u.hashCode)
include hK

theorem contains_iff (h : t.Sound K) (hkey : K key) : t.contains key ↔ key.toClass ∈ t.classes := by
  rw [contains, h.find?_eq hK hkey, Scan.find?_eq, Option.isSome_map, List.find?_isSome, classes,
    Value.mem_classes]
  simp only [Value.toClass_eq_iff, keys, List.mem_map]
  grind

theorem insert (h : t.Sound K) (hkey : K key) : (t.insert key ()).Sound K :=
  (h.apply hK (r := .insert key ()) hkey).sound

theorem erase (h : t.Sound K) (hkey : K key) : (t.erase key).Sound K :=
  (h.apply hK (r := .erase key) hkey).sound

theorem classes_insert (h : t.Sound K) (hkey : K key) :
    (t.insert key ()).classes = Insert.insert key.toClass t.classes := by
  have hperm := (h.apply hK (r := .insert key ()) hkey).perm
  have hkeys : (t.insert key ()).keys.Perm ((Scan.put key () t.entries).map (·.1)) := hperm.map _
  rw [classes, Value.classes, List.toFinset_eq_of_perm _ _ (hkeys.map _), Scan.keys_put]
  split
  · next hany =>
    obtain ⟨e, he, heq⟩ := List.any_eq_true.1 hany
    have hmem : key.toClass ∈ t.classes :=
      Value.mem_classes.2 ⟨e.1, List.mem_map_of_mem he, Value.toClass_eq_iff.2 heq⟩
    exact (Finset.insert_eq_of_mem hmem).symm
  · ext c
    simp [classes, keys, eq_comm]

/-- Putting in one value after the other adds their classes. -/
theorem foldl_insert (h : t.Sound K) {vs : List Value} (hvs : ∀ v ∈ vs, K v) :
    (vs.foldl (fun t v => t.insert v ()) t).Sound K ∧
      (vs.foldl (fun t v => t.insert v ()) t).classes = t.classes ∪ Value.classes vs := by
  induction vs generalizing t with
  | nil => exact ⟨h, (Finset.union_empty _).symm⟩
  | cons v vs ih =>
    obtain ⟨hv, hvs⟩ := List.forall_mem_cons.1 hvs
    obtain ⟨hsound, hclasses⟩ := ih (h.insert hK hv) hvs
    refine ⟨hsound, hclasses.trans ?_⟩
    rw [h.classes_insert hK hv]
    ext c
    simp [eq_comm, or_left_comm]

theorem ofList {vs : List Value} (hvs : ∀ v ∈ vs, K v) :
    (Table.ofList vs : Table assign Unit).Sound K :=
  (empty.foldl_insert hK hvs).1

theorem classes_ofList {vs : List Value} (hvs : ∀ v ∈ vs, K v) :
    (Table.ofList vs : Table assign Unit).classes = Value.classes vs := by
  have hnone : (Table.empty : Table assign Unit).classes = ∅ := by
    rw [classes, keys_empty]
    rfl
  rw [Table.ofList, (empty.foldl_insert hK hvs).2, hnone, Finset.empty_union]

section Operations

variable (ha : a.Sound K) (hb : b.Sound K)
include ha hb

theorem union : (a.union b).Sound K :=
  (ha.foldl_insert hK fun _ => hb.of_mem_keys).1

theorem classes_union : (a.union b).classes = a.classes ∪ b.classes :=
  (ha.foldl_insert hK fun _ => hb.of_mem_keys).2

theorem classes_inter : (a.inter b).classes = a.classes ∩ b.classes := by
  rw [Table.inter, ha.classes_filter b.contains fun v hv => hb.contains_iff hK hv,
    Finset.filter_mem_eq_inter]

theorem classes_diff : (a.diff b).classes = a.classes \ b.classes := by
  have hq (v : Value) (hv : K v) : (!b.contains v) = true ↔ v.toClass ∉ b.classes := by
    rw [Bool.not_eq_true', ← Bool.not_eq_true, hb.contains_iff hK hv]
  rw [Finset.sdiff_eq_filter]
  exact ha.classes_filter (fun v => !b.contains v) hq

theorem subset_iff : a.subset b ↔ a.classes ⊆ b.classes := by
  rw [subset, List.all_eq_true]
  constructor
  · intro h c hc
    obtain ⟨v, hv, rfl⟩ := Value.mem_classes.1 hc
    exact (hb.contains_iff hK (ha.of_mem_keys hv)).1 (h v hv)
  · intro h v hv
    exact (hb.contains_iff hK (ha.of_mem_keys hv)).2 (h (Value.mem_classes.2 ⟨v, hv, rfl⟩))

/-- As many keys on both sides and the one among the other: then they are the same. -/
theorem sameKeys_iff : a.sameKeys b ↔ a.classes = b.classes := by
  rw [sameKeys, Bool.and_eq_true, beq_iff_eq, ha.subset_iff hK hb, ← ha.card_classes,
    ← hb.card_classes]
  constructor
  · rintro ⟨hcard, hsubset⟩
    exact Finset.eq_of_subset_of_card_le hsubset hcard.ge
  · intro h
    exact ⟨congrArg Finset.card h, h.subset⟩

end Operations
end Hashed
end Sound
end Table
end ScriptValues
