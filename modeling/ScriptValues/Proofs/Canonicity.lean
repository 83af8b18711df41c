import Mathlib.Data.String.Basic
import ScriptValues.Proofs.Classes
import ScriptValues.Proofs.Indiscernibility

/-! Sets of values do not depend on the order or the repetitions they are collected from. Which of
several equal values is kept does, but in a session they look the same, so the listing does not, and
union, intersection and difference are those of the classes of equal values. -/

namespace ScriptValues

namespace Line

variable {a b c : Line}

theorem le_iff : a.le b ↔ a.display < b.display ∨ a.display = b.display ∧ a.hash ≤ b.hash := by
  simp [le]

theorem le_trans (hab : a.le b) (hbc : b.le c) : a.le c := by
  rw [le_iff] at *
  rcases hab with hab | ⟨hab, hhash⟩
  · rcases hbc with hbc | ⟨hbc, -⟩
    · exact Or.inl (lt_trans hab hbc)
    · exact Or.inl (hbc ▸ hab)
  · rcases hbc with hbc | ⟨hbc, hhash'⟩
    · exact Or.inl (hab ▸ hbc)
    · exact Or.inr ⟨hab.trans hbc, UInt64.le_trans hhash hhash'⟩

theorem le_total (a b : Line) : (a.le b || b.le a) = true := by
  rw [Bool.or_eq_true, le_iff, le_iff]
  rcases lt_trichotomy a.display b.display with hlt | heq | hgt
  · exact Or.inl (Or.inl hlt)
  · rcases UInt64.le_total a.hash b.hash with hle | hle
    · exact Or.inl (Or.inr ⟨heq, hle⟩)
    · exact Or.inr (Or.inr ⟨heq.symm, hle⟩)
  · exact Or.inr (Or.inl hgt)

theorem le_antisymm (hab : a.le b) (hba : b.le a) : a = b := by
  rw [le_iff] at hab hba
  rcases hab with hab | ⟨hdisplay, hab⟩
  · rcases hba with hba | ⟨hba, -⟩
    · exact absurd hba (lt_asymm hab)
    · exact absurd hab (hba ▸ lt_irrefl _)
  · rcases hba with hba | ⟨-, hba⟩
    · exact absurd hba (hdisplay ▸ lt_irrefl _)
    · obtain ⟨display, hash⟩ := a
      obtain ⟨display', hash'⟩ := b
      obtain rfl : display = display' := hdisplay
      obtain rfl : hash = hash' := UInt64.le_antisymm hab hba
      rfl

end Line

namespace Table

variable {m : Nat} {assign : HashCode → Fin m} {K : Value → Prop} {a b t : Table assign Unit}

theorem listing_perm (t : Table assign Unit) : t.listing.Perm (t.keys.map Line.ofValue) :=
  List.mergeSort_perm _ _

theorem listing_sorted (t : Table assign Unit) : t.listing.Pairwise fun k l => k.le l := by
  apply List.pairwise_mergeSort
  · intro a b c
    exact Line.le_trans
  · exact Line.le_total

/-- There is one way to sort. -/
theorem listing_congr (h : a.keys.Perm b.keys) : a.listing = b.listing := by
  have hperm := (a.listing_perm.trans (h.map Line.ofValue)).trans b.listing_perm.symm
  exact hperm.eq_of_pairwise (fun _ _ _ _ => Line.le_antisymm) a.listing_sorted b.listing_sorted

namespace Sound

theorem mem_keys_of_classes (hK : ∀ v u, K v → K u → v == u → v = u) (ha : a.Sound K)
    (hb : b.Sound K) (h : a.classes ⊆ b.classes) : a.keys ⊆ b.keys := by
  intro v hv
  obtain ⟨u, hu, heq⟩ := Value.classes_subset_iff.1 h v hv
  rwa [hK v u (ha.of_mem_keys hv) (hb.of_mem_keys hu) heq]

theorem nodup_keys (h : t.Sound K) : t.keys.Nodup := by
  refine h.keys_apart.imp fun hne heq => ?_
  rw [heq, BEq.rfl] at hne
  cases hne

/-- Of one class the two keep equal keys, which are the same where equality is sameness. -/
theorem keys_perm (hK : ∀ v u, K v → K u → v == u → v = u) (ha : a.Sound K) (hb : b.Sound K)
    (h : a.classes = b.classes) : a.keys.Perm b.keys := by
  refine (List.perm_ext_iff_of_nodup ha.nodup_keys hb.nodup_keys).2 fun v => ⟨?_, ?_⟩
  · exact fun hv => mem_keys_of_classes hK ha hb h.subset hv
  · exact fun hv => mem_keys_of_classes hK hb ha h.superset hv

end Sound

/-- The operations on the two tables are those on the sets of their classes. -/
structure ActsOnClasses (a b : Table assign Unit) : Prop where
  union : (a.union b).classes = a.classes ∪ b.classes
  inter : (a.inter b).classes = a.classes ∩ b.classes
  diff : (a.diff b).classes = a.classes \ b.classes
  subset : a.subset b ↔ a.classes ⊆ b.classes
  sameKeys : a.sameKeys b ↔ a.classes = b.classes
  size_union : (a.union b).size = (a.classes ∪ b.classes).card
  size_inter : (a.inter b).size = (a.classes ∩ b.classes).card
  size_diff : (a.diff b).size = (a.classes \ b.classes).card
  size_union_add_inter : (a.union b).size + (a.inter b).size = a.size + b.size
  size_diff_add_inter : (a.diff b).size + (a.inter b).size = a.size
  subset_iff_diff : a.subset b ↔ (a.diff b).size = 0
  sameKeys_iff_subsets : a.sameKeys b ↔ a.subset b ∧ b.subset a

theorem Sound.actsOnClasses (hK : ∀ v u, K v → K u → v == u → v.hashCode = u.hashCode)
    (ha : a.Sound K) (hb : b.Sound K) : a.ActsOnClasses b := by
  have hunion : (a.union b).size = (a.classes ∪ b.classes).card := by
    rw [← (ha.union hK hb).card_classes, ha.classes_union hK hb]
  have hinter : (a.inter b).size = (a.classes ∩ b.classes).card := by
    rw [← (ha.inter b).card_classes, ha.classes_inter hK hb]
  have hdiff : (a.diff b).size = (a.classes \ b.classes).card := by
    rw [← (ha.diff b).card_classes, ha.classes_diff hK hb]
  refine ⟨ha.classes_union hK hb, ha.classes_inter hK hb, ha.classes_diff hK hb, ha.subset_iff hK hb,
    ha.sameKeys_iff hK hb, hunion, hinter, hdiff, ?_, ?_, ?_, ?_⟩
  · rw [hunion, hinter, ← ha.card_classes, ← hb.card_classes]
    exact Finset.card_union_add_card_inter _ _
  · rw [hdiff, hinter, ← ha.card_classes]
    exact Finset.card_sdiff_add_card_inter _ _
  · rw [ha.subset_iff hK hb, hdiff, Finset.card_eq_zero, Finset.sdiff_eq_empty_iff_subset]
  · rw [ha.sameKeys_iff hK hb, ha.subset_iff hK hb, hb.subset_iff hK ha]
    exact Finset.Subset.antisymm_iff

end Table

namespace Session

variable {s s' : Session} {n : UInt64} {cs : List Command}

/-- The functions inside the value are those of the session's world. -/
def KnowsValue (s : Session) (v : Value) : Prop :=
  v.Forall s.world.Knows

/-- What holds of every set that a session stores holds after a change, if it holds of the sets that
a command can make. -/
theorem Effect.sets {Q : ValueSet → Prop} (h : s.Effect s') (hs : s.sets.Forall Q)
    (hmake : ∀ t, s.MakesSet t → Q t) : s'.sets.Forall Q := by
  cases h with
  | change h =>
    cases h with
    | keepSet name ht => exact hs.keep name (hmake _ ht)
    | mint name => cases name <;> exact hs
    | dropContext name =>
      unfold Session.dropContext
      split <;> exact hs
    | _ => exact hs
  | call name hf hargs =>
    unfold Session.call
    split <;> exact hs

theorem knowsValue_of_over_holds {v : Value} (h : v.Over ((start n).after cs).Holds) :
    ((start n).after cs).KnowsValue v :=
  h.mono fun _ => made_of_holds

theorem MakesSet.sound {t : ValueSet} (h : ((start n).after cs).MakesSet t)
    (hs : ((start n).after cs).sets.Forall (Table.Sound ((start n).after cs).KnowsValue)) :
    t.Sound ((start n).after cs).KnowsValue := by
  have hhash := (fresh_after n cs).value_contract.hash
  have hset (name : String) :
      (((start n).after cs).setOrNew name).Sound ((start n).after cs).KnowsValue := by
    unfold setOrNew
    cases hget : ((start n).after cs).sets.get? name with
    | none => exact Table.Sound.empty
    | some t => exact hs name t hget
  cases h with
  | collected hvs => exact Table.Sound.ofList hhash fun v hv => knowsValue_of_over_holds (hvs v hv)
  | named name => exact hset name
  | inserted name hv => exact (hset name).insert hhash (knowsValue_of_over_holds hv)
  | erased name hv => exact (hset name).erase hhash (knowsValue_of_over_holds hv)

theorem sets_sound (n : UInt64) (cs : List Command) :
    ((start n).after cs).sets.Forall (Table.Sound ((start n).after cs).KnowsValue) := by
  induction cs using List.reverseRecOn with
  | nil => exact Store.Forall.empty
  | append_singleton cs c ih =>
    have heffect := (start n).after_effect cs c
    have hkept := heffect.sets ih fun t ht => ht.sound ih
    exact hkept.mono fun t ht => ht.mono fun v hv f hf => heffect.moves.knows (hv f hf)

/-- Over the values of a session, sets collected from the same classes are one set, with one key for
each class and one listing, and what is computed from sets is computed from their classes. The sets
collected and the sets stored are such sets. -/
theorem sets_canonical {m : Nat} (assign : HashCode → Fin m) (n : UInt64) (cs : List Command) :
    let s := (start n).after cs
    (∀ xs ys : List Value, (∀ v ∈ xs ++ ys, s.KnowsValue v) →
      (∀ x ∈ xs, ∃ y ∈ ys, x == y) → (∀ y ∈ ys, ∃ x ∈ xs, y == x) →
      let a : Table assign Unit := .ofList xs
      let b : Table assign Unit := .ofList ys
      a.Sound s.KnowsValue ∧ a.sameKeys b ∧ a.size = b.size ∧ a.size = (Value.classes xs).card ∧
      a.listing = b.listing ∧ a.listing.Perm (a.keys.map Line.ofValue) ∧
      a.listing.Pairwise fun k l => k.le l) ∧
    (∀ a b : Table assign Unit, a.Sound s.KnowsValue → b.Sound s.KnowsValue → a.ActsOnClasses b) ∧
    (∀ name t, s.sets.get? name = some t → t.Sound s.KnowsValue) ∧
    ∀ v, s.HoldsValue v → s.KnowsValue v := by
  intro s
  have hfresh := fresh_after n cs
  have hhash := hfresh.value_contract.hash
  refine ⟨?_, fun a b ha hb => ha.actsOnClasses hhash hb, sets_sound n cs, fun v hv => hv.knows⟩
  intro xs ys hknown hxs hys a b
  obtain ⟨hxknown, hyknown⟩ := List.forall_mem_append.1 hknown
  have ha : a.Sound s.KnowsValue := .ofList hhash hxknown
  have hb : b.Sound s.KnowsValue := .ofList hhash hyknown
  have hxclasses : a.classes = Value.classes xs :=
    Table.Sound.classes_ofList hhash hxknown
  have hyclasses : b.classes = Value.classes ys :=
    Table.Sound.classes_ofList hhash hyknown
  have hclasses : a.classes = b.classes := by
    rw [hxclasses, hyclasses]
    exact (Value.classes_subset_iff.2 hxs).antisymm (Value.classes_subset_iff.2 hys)
  have hkeys : a.keys.Perm b.keys := ha.keys_perm (fun _ _ => hfresh.value_eq) hb hclasses
  refine ⟨ha, (ha.sameKeys_iff hhash hb).2 hclasses, ?_, ?_, Table.listing_congr hkeys,
    a.listing_perm, a.listing_sorted⟩
  · rw [← ha.card_classes, hclasses, hb.card_classes]
  · rw [← ha.card_classes, hxclasses]

/-- Two registrations of one signature, which one bucket keeps apart, and copies of the first. -/
theorem registeredTwice_collected :
    let f := registered 0 1 0
    let g := registered 1 3 1
    let a : Table (fun _ => (0 : Fin 1)) Unit := .ofList [.function f, .function g, .function f]
    let b : Table (fun _ => (0 : Fin 1)) Unit := .ofList [.function g, .function f]
    a.sameKeys b ∧ a.size = 2 ∧ a.listing = b.listing ∧
    (a.union b).size + (a.inter b).size = a.size + b.size ∧ (a.subset b ↔ (a.diff b).size = 0) := by
  intro f g a b
  obtain ⟨hcollected, hoperations, -, hknown⟩ :=
    sets_canonical (fun _ => (0 : Fin 1)) 1 registeredTwice
  have hf : ((start 1).after registeredTwice).KnowsValue (.function f) :=
    hknown _ (@HoldsValue.given _ (.function "f") _ rfl)
  have hg : ((start 1).after registeredTwice).KnowsValue (.function g) :=
    hknown _ (@HoldsValue.given _ (.function "again") _ rfl)
  obtain ⟨ha, hsame, -, hsize, hlisting, -⟩ :=
    hcollected [.function f, .function g, .function f] [.function g, .function f]
      (by simp [hf, hg]) (by simp) (by simp)
  obtain ⟨hb, -⟩ := hcollected [.function g, .function f] [.function f, .function g, .function f]
    (by simp [hf, hg]) (by simp) (by simp)
  have hacts : a.ActsOnClasses b := hoperations a b ha hb
  exact ⟨hsame, hsize.trans rfl, hlisting, hacts.size_union_add_inter, hacts.subset_iff_diff⟩

end Session
end ScriptValues
