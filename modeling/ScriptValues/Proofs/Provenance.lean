import Mathlib.Data.List.Induction
import ScriptValues.Proofs.Effects

/-! Whatever a session holds goes back, without a gap, to an event of its world, and things of one
identity go back to one event. So it makes no difference whether identities or addresses are compared,
even where addresses are used again. -/

namespace ScriptValues
namespace Session

/-- The session after some commands. -/
def after (s : Session) (cs : List Command) : Session :=
  (s.run cs).2

theorem after_append (s : Session) (cs later : List Command) :
    s.after (cs ++ later) = (s.after cs).after later := by
  induction cs generalizing s with
  | nil => rfl
  | cons c cs ih => exact ih (s.step c).2

theorem after_concat (s : Session) (cs : List Command) (c : Command) :
    s.after (cs ++ [c]) = ((s.after cs).step c).2 :=
  s.after_append cs [c]

/-- The `i`-th event of the run made the entity, which is held after the commands and has been held
ever since. A copy of a token or of a registration is the thing itself. -/
inductive Lineage (s : Session) (i : Nat) : List Command → Entity → Prop where
  | made {cs : List Command} {c : Command} {x : Entity} :
      (s.after cs).world.MakesAt (s.after (cs ++ [c])).world i x →
      (s.after (cs ++ [c])).Holds x → Lineage s i (cs ++ [c]) x
  | kept {cs : List Command} {c : Command} {x : Entity} : Lineage s i cs x →
      (s.after (cs ++ [c])).Holds x → Lineage s i (cs ++ [c]) x

theorem step_effect (s : Session) (c : Command) : s.Effect (s.step c).2 := by
  cases c with
  | ask q => exact .change .none
  | act a =>
    simp only [step]
    split
    · exact .change .none
    · next h => exact act_effect h

theorem after_effect (s : Session) (cs : List Command) (c : Command) :
    (s.after cs).Effect (s.after (cs ++ [c])) := by
  rw [after_concat]
  exact step_effect _ c

theorem after_moves (s : Session) (cs : List Command) : s.world.Moves (s.after cs).world := by
  induction cs using List.reverseRecOn with
  | nil => exact .refl
  | append_singleton cs c ih => exact ih.trans (s.after_effect cs c).moves

theorem fresh_after (n : UInt64) (cs : List Command) : ((start n).after cs).world.Fresh := by
  induction cs using List.reverseRecOn with
  | nil => exact World.Fresh.start n
  | append_singleton cs c ih => exact ih.moves ((start n).after_effect cs c).moves

theorem not_holds_start (n : UInt64) (x : Entity) : ¬ (start n).Holds x :=
  (over_start (A := fun _ => False) n).of_holds

/-- The entity came with the last command, or was there before it. -/
theorem holds_after_concat {s : Session} {cs : List Command} {c : Command} {x : Entity}
    (h : (s.after (cs ++ [c])).Holds x) :
    (s.after cs).Holds x ∨ ∃ i, (s.after cs).world.MakesAt (s.after (cs ++ [c])).world i x := by
  let B (x : Entity) : Prop :=
    (s.after cs).Holds x ∨ ∃ i, (s.after cs).world.MakesAt (s.after (cs ++ [c])).world i x
  have hbefore : (s.after cs).Over B := (s.after cs).over_holds.mono fun _ => Or.inl
  have hafter : (s.after (cs ++ [c])).Over B :=
    (s.after_effect cs c).preserves_over hbefore fun i _ hi => Or.inr ⟨i, hi⟩
  exact hafter.of_holds h

theorem exists_lineage {n : UInt64} {cs : List Command} {x : Entity}
    (h : ((start n).after cs).Holds x) : ∃ i, Lineage (start n) i cs x := by
  induction cs using List.reverseRecOn with
  | nil => exact absurd h (not_holds_start n x)
  | append_singleton cs c ih =>
    rcases holds_after_concat h with hbefore | ⟨i, hi⟩
    · obtain ⟨i, hi⟩ := ih hbefore
      exact ⟨i, .kept hi h⟩
    · exact ⟨i, .made hi h⟩

theorem Lineage.event {s : Session} {i : Nat} {cs : List Command} {x : Entity}
    (h : Lineage s i cs x) : ∃ e, (s.after cs).world.history[i]? = some e ∧ e.made = some x := by
  induction h with
  | made hmakes _ => exact hmakes.2
  | @kept cs c x _ _ ih =>
    obtain ⟨e, he, hx⟩ := ih
    obtain ⟨later, hlater⟩ := (s.after_effect cs c).moves.history_isPrefix
    obtain ⟨hlt, _⟩ := List.getElem?_eq_some_iff.1 he
    refine ⟨e, ?_, hx⟩
    rw [← hlater, List.getElem?_append_left hlt, he]

theorem made_of_holds {n : UInt64} {cs : List Command} {x : Entity}
    (h : ((start n).after cs).Holds x) : ((start n).after cs).world.Made x := by
  obtain ⟨i, hi⟩ := exists_lineage h
  obtain ⟨e, he, hx⟩ := hi.event
  exact ⟨e, List.mem_of_getElem? he, hx⟩

/-- Nothing in a session is from outside its world. -/
theorem over_made (n : UInt64) (cs : List Command) :
    ((start n).after cs).Over ((start n).after cs).world.Made :=
  ((start n).after cs).over_holds.mono fun _ => made_of_holds

/-- Things of one identity go back to one event, and so do not differ. -/
theorem Lineage.index_eq {n : UInt64} {i j : Nat} {cs : List Command} {x y : Entity}
    (h : Lineage (start n) i cs x) (k : Lineage (start n) j cs y)
    (hxy : x.identity = y.identity) : i = j := by
  obtain ⟨e, he, hx⟩ := h.event
  obtain ⟨e', he', hy⟩ := k.event
  exact (fresh_after n cs).index_eq he he' hx hy hxy

theorem Lineage.entity_eq {s : Session} {i : Nat} {cs : List Command} {x y : Entity}
    (h : Lineage s i cs x) (k : Lineage s i cs y) : x = y := by
  obtain ⟨e, he, hx⟩ := h.event
  obtain ⟨e', he', hy⟩ := k.event
  rw [he] at he'
  cases he'
  rw [hx] at hy
  exact Option.some.inj hy

theorem not_lineage_nil {s : Session} {i : Nat} {x : Entity} : ¬ Lineage s i [] x := by
  generalize hnil : ([] : List Command) = cs
  rintro (_ | _)
  · exact List.append_ne_nil_of_right_ne_nil _ (List.cons_ne_nil _ _) hnil.symm
  · exact List.append_ne_nil_of_right_ne_nil _ (List.cons_ne_nil _ _) hnil.symm

theorem lineage_concat_iff {s : Session} {i : Nat} {cs : List Command} {c : Command} {x : Entity} :
    Lineage s i (cs ++ [c]) x ↔ (s.after (cs ++ [c])).Holds x ∧
      ((s.after cs).world.MakesAt (s.after (cs ++ [c])).world i x ∨ Lineage s i cs x) := by
  constructor
  · generalize hds : cs ++ [c] = ds
    rintro (⟨hmakes, hx⟩ | ⟨hbefore, hx⟩)
    · obtain ⟨rfl, hc⟩ := List.append_inj' hds rfl
      cases hc
      exact ⟨hx, Or.inl hmakes⟩
    · obtain ⟨rfl, hc⟩ := List.append_inj' hds rfl
      cases hc
      exact ⟨hx, Or.inr hbefore⟩
  · rintro ⟨hx, hmakes | hbefore⟩
    · exact .made hmakes hx
    · exact .kept hbefore hx

/-- Of two entities held, the identities agree exactly when the events do. -/
theorem identity_eq_iff {n : UInt64} {cs : List Command} {x y : Entity}
    (hx : ((start n).after cs).Holds x) (hy : ((start n).after cs).Holds y) :
    x.identity = y.identity ↔ ∃ i, Lineage (start n) i cs x ∧ Lineage (start n) i cs y := by
  constructor
  · intro hxy
    obtain ⟨i, hi⟩ := exists_lineage hx
    obtain ⟨j, hj⟩ := exists_lineage hy
    obtain rfl := hi.index_eq hj hxy
    exact ⟨i, hi, hj⟩
  · rintro ⟨i, hi, hj⟩
    rw [hi.entity_eq hj]

/-- An address for every event. What is made gets one that nothing held then has, and two things of
one command get two. An address comes back as soon as nothing held goes back to its event. -/
def Allocates (s : Session) (address : Nat → Nat) (cs : List Command) : Prop :=
  ∀ before c, before ++ [c] <+: cs →
    ∀ i x, (s.after before).world.MakesAt (s.after (before ++ [c])).world i x →
      (∀ j y, Lineage s j before y → address i ≠ address j) ∧
      (∀ j y, (s.after before).world.MakesAt (s.after (before ++ [c])).world j y →
        address i = address j → i = j)

/-- Addresses that never come back are one way. -/
theorem allocates_of_injective {s : Session} {address : Nat → Nat}
    (h : ∀ i j, address i = address j → i = j) (cs : List Command) : Allocates s address cs := by
  intro before c _ i x hmakes
  refine ⟨fun j y hy heq => ?_, fun j y _ => h i j⟩
  obtain ⟨e, he, _⟩ := hy.event
  obtain ⟨hlt, _⟩ := List.getElem?_eq_some_iff.1 he
  have hle := hmakes.1
  have hij := h i j heq
  omega

theorem Allocates.inj {s : Session} {address : Nat → Nat} {cs : List Command}
    (h : Allocates s address cs) {i j : Nat} {x y : Entity} (hx : Lineage s i cs x)
    (hy : Lineage s j cs y) (heq : address i = address j) : i = j := by
  induction cs using List.reverseRecOn with
  | nil => exact absurd hx not_lineage_nil
  | append_singleton cs c ih =>
    have hlast := h cs c List.prefix_rfl
    have hbefore : Allocates s address cs := fun before d hpre =>
      h before d (hpre.trans (List.prefix_append _ _))
    obtain ⟨-, hx | hx⟩ := lineage_concat_iff.1 hx
    · obtain ⟨-, hy | hy⟩ := lineage_concat_iff.1 hy
      · exact (hlast i x hx).2 j y hy heq
      · exact absurd heq ((hlast i x hx).1 j y hy)
    · obtain ⟨-, hy | hy⟩ := lineage_concat_iff.1 hy
      · exact absurd heq.symm ((hlast j y hy).1 i x hx)
      · exact ih hbefore hx hy

/-- To compare addresses is to compare identities, whichever addresses are used again, because none is
free while something held goes back to its event. -/
theorem address_eq_iff {n : UInt64} {address : Nat → Nat} {cs : List Command}
    (h : Allocates (start n) address cs) {i j : Nat} {x y : Entity} (hx : Lineage (start n) i cs x)
    (hy : Lineage (start n) j cs y) : address i = address j ↔ x.identity = y.identity := by
  constructor
  · intro heq
    obtain rfl := h.inj hx hy heq
    rw [hx.entity_eq hy]
  · intro hxy
    rw [hx.index_eq hy hxy]

theorem token_beq_iff_lineage {n : UInt64} {cs : List Command} {t u : Token}
    (ht : ((start n).after cs).HoldsToken t) (hu : ((start n).after cs).HoldsToken u) :
    t == u ↔ ∃ i, Lineage (start n) i cs (.token t) ∧ Lineage (start n) i cs (.token u) := by
  rw [Token.beq_iff, ← identity_eq_iff (x := .token t) (y := .token u) ht hu]
  exact ⟨congrArg Identity.context, Identity.context.inj⟩

end Session
end ScriptValues
