import Mathlib.Data.List.Forall2
import ScriptValues.Value

/-! Equality as a key contract. Every relation that equality proves goes through one induction: two
values are equal exactly when they have one shape and equal functions at the same places, so what
the functions agree on, the values agree on. -/

namespace ScriptValues

theorem Token.beq_iff {t u : Token} : t == u ↔ t.context = u.context := by
  change (t.context == u.context) = true ↔ _
  exact beq_iff_eq

instance : EquivBEq Token where
  rfl := Token.beq_iff.2 rfl
  symm h := Token.beq_iff.2 (Token.beq_iff.1 h).symm
  trans h k := Token.beq_iff.2 ((Token.beq_iff.1 h).trans (Token.beq_iff.1 k))

theorem Registration.beq_iff {r s : Registration} : r == s ↔ r.id = s.id := by
  change (r.id == s.id) = true ↔ _
  exact beq_iff_eq

instance : EquivBEq Registration where
  rfl := Registration.beq_iff.2 rfl
  symm h := Registration.beq_iff.2 (Registration.beq_iff.1 h).symm
  trans h k := Registration.beq_iff.2 ((Registration.beq_iff.1 h).trans (Registration.beq_iff.1 k))

namespace Function

theorem beq_iff {f g : Function} : f == g ↔
    (∃ id t u, f = compiler id t ∧ g = compiler id u ∧ t == u) ∨
      (∃ r s, f = host r ∧ g = host s ∧ r == s) := by
  constructor
  · intro h
    cases f with
    | compiler i t =>
      cases g with
      | compiler j u =>
        have hb : (i == j && t == u) = true := h
        obtain ⟨hi, ht⟩ := Bool.and_eq_true_iff.1 hb
        obtain rfl := eq_of_beq hi
        exact Or.inl ⟨i, t, u, rfl, rfl, ht⟩
      | host s => cases h
    | host r =>
      cases g with
      | compiler j u => cases h
      | host s => exact Or.inr ⟨r, s, rfl, rfl, h⟩
  · rintro (⟨id, t, u, rfl, rfl, h⟩ | ⟨r, s, rfl, rfl, h⟩)
    · have hb : (id == id && t == u) = true := by rw [beq_self_eq_true, Bool.true_and, h]
      exact hb
    · exact h

theorem beq_refl (f : Function) : f == f := by
  cases f with
  | compiler id t => exact beq_iff.2 (Or.inl ⟨id, t, t, rfl, rfl, BEq.rfl⟩)
  | host r => exact beq_iff.2 (Or.inr ⟨r, r, rfl, rfl, BEq.rfl⟩)

theorem beq_symm {f g : Function} (h : f == g) : g == f := by
  rcases beq_iff.1 h with ⟨id, t, u, rfl, rfl, ht⟩ | ⟨r, s, rfl, rfl, hr⟩
  · exact beq_iff.2 (Or.inl ⟨id, u, t, rfl, rfl, BEq.symm ht⟩)
  · exact beq_iff.2 (Or.inr ⟨s, r, rfl, rfl, BEq.symm hr⟩)

theorem beq_trans {f g e : Function} (h : f == g) (k : g == e) : f == e := by
  rcases beq_iff.1 h with ⟨id, t, u, rfl, rfl, ht⟩ | ⟨r, s, rfl, rfl, hr⟩
  · rcases beq_iff.1 k with ⟨_, _, v, hg, rfl, hu⟩ | ⟨_, _, hg, -, -⟩
    · cases hg
      exact beq_iff.2 (Or.inl ⟨id, t, v, rfl, rfl, BEq.trans ht hu⟩)
    · cases hg
  · rcases beq_iff.1 k with ⟨_, _, _, hg, -, -⟩ | ⟨_, q, hg, rfl, hs⟩
    · cases hg
    · cases hg
      exact beq_iff.2 (Or.inr ⟨r, q, rfl, rfl, BEq.trans hr hs⟩)

instance : EquivBEq Function where
  rfl := beq_refl _
  symm := beq_symm
  trans := beq_trans

end Function

namespace Value

/-- Induction over values, with the hypothesis for every element of a list. -/
@[elab_as_elim, induction_eliminator]
theorem induction {P : Value → Prop} (null : P null) (boolean : ∀ b, P (boolean b))
    (string : ∀ s, P (string s)) (list : ∀ vs, (∀ v ∈ vs, P v) → P (list vs))
    (function : ∀ f, P (function f)) (v : Value) : P v :=
  @Value.rec P (fun vs => ∀ v ∈ vs, P v) null boolean string list function
    (fun _ h => absurd h List.not_mem_nil)
    (fun _ _ hv hvs _ h => (List.mem_cons.1 h).elim (fun e => e ▸ hv) (hvs _)) v

@[simp] theorem list_beq_list (vs ws : List Value) : (list vs == list ws) = beqItems vs ws := rfl

@[simp] theorem function_beq_function (f g : Function) : (function f == function g) = (f == g) := rfl

theorem beqItems_iff {vs ws : List Value} :
    beqItems vs ws ↔ List.Forall₂ (fun v w => (v == w) = true) vs ws := by
  induction vs generalizing ws with
  | nil =>
    cases ws with
    | nil => exact iff_of_true rfl .nil
    | cons w ws => exact iff_of_false Bool.false_ne_true nofun
  | cons v vs ih =>
    cases ws with
    | nil => exact iff_of_false Bool.false_ne_true nofun
    | cons w ws => rw [beqItems, Bool.and_eq_true, List.forall₂_cons, ih]; rfl

/-- What holds of equal leaves, and of lists when it holds of their elements, holds of equal values. -/
theorem beq_induction {P : Value → Value → Prop} (null : P null null)
    (boolean : ∀ b, P (boolean b) (boolean b)) (string : ∀ s, P (string s) (string s))
    (list : ∀ vs ws, List.Forall₂ P vs ws → P (list vs) (list ws))
    (function : ∀ f g, f == g → P (function f) (function g)) {v w : Value} (h : v == w) : P v w := by
  induction v generalizing w with
  | null =>
    cases w with
    | null => exact null
    | _ => cases h
  | boolean b =>
    cases w with
    | boolean c =>
      obtain rfl : b = c := eq_of_beq h
      exact boolean b
    | _ => cases h
  | string s =>
    cases w with
    | string t =>
      obtain rfl : s = t := eq_of_beq h
      exact string s
    | _ => cases h
  | list vs ih =>
    cases w with
    | list ws =>
      have hitems := beqItems_iff.1 h
      refine list vs ws (List.forall₂_iff_zip.2 ⟨hitems.length_eq, fun hm => ?_⟩)
      exact ih _ (List.of_mem_zip hm).1 (List.forall₂_zip hitems hm)
    | _ => cases h
  | function f =>
    cases w with
    | function g => exact function f g h
    | _ => cases h

theorem beq_refl (v : Value) : v == v := by
  induction v with
  | null => rfl
  | boolean b => exact BEq.refl b
  | string s => exact BEq.refl s
  | list vs ih => exact beqItems_iff.2 (List.forall₂_same.2 ih)
  | function f => exact BEq.refl f

theorem beq_symm {v w : Value} (h : v == w) : w == v := by
  refine beq_induction (P := fun v w => (w == v) = true) rfl BEq.refl BEq.refl ?_ ?_ h
  · intro vs ws ih
    exact beqItems_iff.2 ih.flip
  · intro f g hfg
    exact Function.beq_symm hfg

theorem beqItems_trans {us vs ws : List Value}
    (h : List.Forall₂ (fun u v => ∀ w, v == w → u == w) us vs) (k : beqItems vs ws) :
    beqItems us ws := by
  induction h generalizing ws with
  | nil => exact k
  | cons hu _ ih =>
    cases ws with
    | nil => cases k
    | cons w ws =>
      obtain ⟨hw, hws⟩ := Bool.and_eq_true_iff.1 k
      exact Bool.and_eq_true_iff.2 ⟨hu w hw, ih hws⟩

theorem beq_trans {u v w : Value} (h : u == v) (k : v == w) : u == w := by
  refine beq_induction (P := fun u v => ∀ w, v == w → u == w) ?_ ?_ ?_ ?_ ?_ h w k
  · intro w hw
    exact hw
  · intro b w hw
    exact hw
  · intro s w hw
    exact hw
  · intro us vs ih w hw
    cases w with
    | list ws => exact beqItems_trans ih hw
    | _ => cases hw
  · intro f g hfg w hw
    cases w with
    | function e => exact Function.beq_trans hfg hw
    | _ => cases hw

instance : EquivBEq Value where
  rfl := beq_refl _
  symm := beq_symm
  trans := beq_trans

theorem ctorIdx_eq_of_beq {v w : Value} (h : v == w) : v.ctorIdx = w.ctorIdx :=
  beq_induction (P := fun v w => v.ctorIdx = w.ctorIdx) rfl (fun _ => rfl) (fun _ => rfl)
    (fun _ _ _ => rfl) (fun _ _ _ => rfl) h

/-- Something holds of every function inside the value. -/
def Forall (K : Function → Prop) (v : Value) : Prop :=
  ∀ f ∈ v.functions, K f

@[simp] theorem forall_function {K : Function → Prop} {f : Function} :
    (function f).Forall K ↔ K f :=
  List.forall_mem_singleton

@[simp] theorem forall_list {K : Function → Prop} {vs : List Value} :
    (list vs).Forall K ↔ ∀ v ∈ vs, v.Forall K := by
  simp only [Forall, functions, functionsOfItems_eq_flatMap, List.mem_flatMap]
  constructor
  · intro h v hv f hf
    exact h f ⟨v, hv, hf⟩
  · rintro h f ⟨v, hv, hf⟩
    exact h v hv f hf

/-- Where equal functions are the same, so are equal values. -/
theorem eq_of_beq {K : Function → Prop} (hK : ∀ f g, K f → K g → f == g → f = g) {v w : Value}
    (hv : v.Forall K) (hw : w.Forall K) (h : v == w) : v = w := by
  refine beq_induction (P := fun v w => v.Forall K → w.Forall K → v = w) ?_ ?_ ?_ ?_ ?_ h hv hw
  · intro _ _
    rfl
  · intro b _ _
    rfl
  · intro s _ _
    rfl
  · intro vs ws ih hvs hws
    rw [forall_list] at hvs hws
    congr 1
    induction ih with
    | nil => rfl
    | cons hvw _ ih =>
      obtain ⟨hv, hvs⟩ := List.forall_mem_cons.1 hvs
      obtain ⟨hw, hws⟩ := List.forall_mem_cons.1 hws
      rw [hvw hv hw, ih hvs hws]
  · intro f g hfg hf hg
    rw [hK f g (forall_function.1 hf) (forall_function.1 hg) hfg]

end Value
end ScriptValues
