import ScriptValues.Proofs.Equality
import ScriptValues.World.Quiet

/-! The history of a world records everything with an identity that the world ever made. No two of
its events make things of one identity, however the world came to its state, so among the functions
that a world knows equality is sameness. -/

namespace ScriptValues

/-- What has an identity: the token of a context, or a registration. -/
inductive Entity where
  | token (t : Token)
  | registration (r : Registration)

inductive Identity where
  | context (id : ContextId)
  | registration (id : RegistrationId)

def Entity.identity : Entity → Identity
  | token t => .context t.context
  | registration r => .registration r.id

/-- The entity that an event makes. -/
def Event.made : Event → Option Entity
  | minted c => some (.token c.token)
  | dropped _ => none
  | registered r => some (.registration r)

/-- The entity that a function has its identity from. -/
def Function.entity : Function → Entity
  | compiler _ t => .token t
  | host r => .registration r

namespace World

/-- Some event in the history made the entity. -/
def Made (w : World) (x : Entity) : Prop :=
  ∃ e ∈ w.history, e.made = some x

/-- The function is of this world: it refers to a context minted here, or was registered here. -/
def Knows (w : World) (f : Function) : Prop :=
  w.Made f.entity

/-- The identity is taken: the world has counted past it. -/
def Taken (w : World) : Identity → Prop
  | .context id => id.ordinal < w.contextCount
  | .registration id => id.ordinal < w.registrationCount

/-- The changes of a world, one after the other. -/
inductive Moves (w : World) : World → Prop where
  | refl : Moves w w
  | mint {v : World} : Moves w v → Moves w v.mint.2
  | drop {v : World} (c : Context) : Moves w v → Moves w (v.drop c)
  | wrap {v : World} (r : RoutineId) : Moves w v → Moves w (v.wrap r).2
  | newCallback {v : World} (b : Behaviour) : Moves w v → Moves w (v.newCallback b).2
  | register {v : World} (s : String) (c : Callback) : Moves w v → Moves w (v.register s c).2
  | call {v : World} (f : Function) (args : List Value) : Moves w v → Moves w (v.call f args).2

theorem Moves.trans {a b c : World} (h : Moves a b) (k : Moves b c) : Moves a c := by
  induction k with
  | refl => exact h
  | mint _ ih => exact ih.mint
  | drop c _ ih => exact ih.drop c
  | wrap r _ ih => exact ih.wrap r
  | newCallback b _ ih => exact ih.newCallback b
  | register s c _ ih => exact ih.register s c
  | call f args _ ih => exact ih.call f args

/-- Nothing is ever taken out of a history. -/
theorem Moves.history_isPrefix {w w' : World} (h : Moves w w') : w.history <+: w'.history := by
  induction h with
  | refl => exact List.prefix_rfl
  | mint _ ih => exact ih.trans (List.prefix_append _ _)
  | drop c _ ih => exact ih.trans (List.prefix_append _ _)
  | wrap r _ ih => exact ih
  | newCallback b _ ih => exact ih
  | register s c _ ih => exact ih.trans (List.prefix_append _ _)
  | call f args _ ih =>
    rw [(quiet_call _ f args).history]
    exact ih

theorem Moves.knows {w w' : World} (h : Moves w w') {f : Function} (hf : w.Knows f) : w'.Knows f := by
  obtain ⟨e, he, hx⟩ := hf
  exact ⟨e, h.history_isPrefix.subset he, hx⟩

/-- What is taken stays taken. -/
theorem Moves.taken {w w' : World} (h : Moves w w') {id : Identity} (hid : w.Taken id) :
    w'.Taken id := by
  induction h with
  | refl => exact hid
  | mint _ ih =>
    cases id with
    | context c => exact Nat.lt_succ_of_lt ih
    | registration r => exact ih
  | drop c _ ih => cases id <;> exact ih
  | wrap r _ ih => cases id <;> exact ih
  | newCallback b _ ih => cases id <;> exact ih
  | register s c _ ih =>
    cases id with
    | context c => exact ih
    | registration r => exact Nat.lt_succ_of_lt ih
  | @call v f args _ ih =>
    have hquiet := quiet_call v f args
    cases id with
    | context c => exact Nat.lt_of_lt_of_eq ih hquiet.contextCount.symm
    | registration r => exact Nat.lt_of_lt_of_eq ih hquiet.registrationCount.symm

/-- The `i`-th event makes the entity, and it came to the history after the first world. -/
def MakesAt (w w' : World) (i : Nat) (x : Entity) : Prop :=
  w.history.length ≤ i ∧ ∃ e, w'.history[i]? = some e ∧ e.made = some x

theorem makesAt_of_isPrefix {w w' : World} {e : Event} {x : Entity}
    (h : w.history ++ [e] <+: w'.history) (hx : e.made = some x) :
    w.MakesAt w' w.history.length x := by
  obtain ⟨later, hlater⟩ := h
  refine ⟨Nat.le_refl _, e, ?_, hx⟩
  rw [← hlater, List.append_assoc, List.getElem?_append_right (Nat.le_refl _), Nat.sub_self]
  rfl

/-- No two events have made things of one identity, and the next identities are still free. -/
structure Fresh (w : World) : Prop where
  taken : ∀ x, w.Made x → w.Taken x.identity
  apart : w.history.Pairwise fun e e' =>
    ∀ x y, e.made = some x → e'.made = some y → x.identity ≠ y.identity

namespace Fresh

variable {w w' : World}

theorem start (n : UInt64) : Fresh { nextSerial := n } where
  taken := by
    rintro x ⟨e, he, -⟩
    cases he
  apart := List.Pairwise.nil

theorem append (h : Fresh w) {e : Event} (hh : w'.history = w.history ++ [e])
    (hmono : ∀ id, w.Taken id → w'.Taken id)
    (hnew : ∀ x, e.made = some x → ¬ w.Taken x.identity ∧ w'.Taken x.identity) : Fresh w' where
  taken := by
    rintro x ⟨e', he', hx⟩
    rw [hh, List.mem_append, List.mem_singleton] at he'
    rcases he' with he' | rfl
    · exact hmono _ (h.taken x ⟨e', he', hx⟩)
    · exact (hnew x hx).2
  apart := by
    rw [hh, List.pairwise_append]
    refine ⟨h.apart, List.pairwise_singleton _ _, ?_⟩
    intro a ha b hb x y hx hy hxy
    obtain rfl := List.mem_singleton.1 hb
    have htaken := h.taken x ⟨a, ha, hx⟩
    rw [hxy] at htaken
    exact (hnew y hy).1 htaken

theorem mint (h : Fresh w) : Fresh w.mint.2 := by
  refine h.append rfl ?_ ?_
  · intro id hid
    cases id with
    | context c => exact Nat.lt_succ_of_lt hid
    | registration r => exact hid
  · intro x hx
    cases hx
    exact ⟨Nat.lt_irrefl _, Nat.lt_succ_self _⟩

theorem drop (h : Fresh w) (c : Context) : Fresh (w.drop c) :=
  h.append rfl (fun id hid => by cases id <;> exact hid) (fun x hx => by cases hx)

theorem register (h : Fresh w) (s : String) (c : Callback) : Fresh (w.register s c).2 := by
  refine h.append rfl ?_ ?_
  · intro id hid
    cases id with
    | context c => exact hid
    | registration r => exact Nat.lt_succ_of_lt hid
  · intro x hx
    cases hx
    exact ⟨Nat.lt_irrefl _, Nat.lt_succ_self _⟩

/-- Only the history and the two counts matter. -/
theorem congr (h : Fresh w) (hh : w'.history = w.history) (hc : w'.contextCount = w.contextCount)
    (hr : w'.registrationCount = w.registrationCount) : Fresh w' where
  taken := by
    rintro x ⟨e, he, hx⟩
    have htaken := h.taken x ⟨e, hh ▸ he, hx⟩
    cases x with
    | token t => exact Nat.lt_of_lt_of_eq htaken hc.symm
    | registration r => exact Nat.lt_of_lt_of_eq htaken hr.symm
  apart := hh.symm ▸ h.apart

theorem moves (h : Fresh w) (hw : Moves w w') : Fresh w' := by
  induction hw with
  | refl => exact h
  | mint _ ih => exact ih.mint
  | drop c _ ih => exact ih.drop c
  | wrap r _ ih => exact ih.congr rfl rfl rfl
  | newCallback b _ ih => exact ih.congr rfl rfl rfl
  | register s c _ ih => exact ih.register s c
  | @call v f args _ ih =>
    have hq := quiet_call v f args
    exact ih.congr hq.history hq.contextCount hq.registrationCount

/-- One identity, one event. -/
theorem index_eq (h : Fresh w) {i j : Nat} {e e' : Event} {x y : Entity}
    (hi : w.history[i]? = some e) (hj : w.history[j]? = some e') (hx : e.made = some x)
    (hy : e'.made = some y) (hxy : x.identity = y.identity) : i = j := by
  have hp := List.pairwise_iff_getElem.1 h.apart
  obtain ⟨hi', rfl⟩ := List.getElem?_eq_some_iff.1 hi
  obtain ⟨hj', rfl⟩ := List.getElem?_eq_some_iff.1 hj
  rcases Nat.lt_trichotomy i j with hlt | heq | hgt
  · exact absurd hxy (hp i j hi' hj' hlt x y hx hy)
  · exact heq
  · exact absurd hxy.symm (hp j i hj' hi' hgt y x hy hx)

theorem eq_of_identity_eq (h : Fresh w) {x y : Entity} (hx : w.Made x) (hy : w.Made y)
    (hxy : x.identity = y.identity) : x = y := by
  obtain ⟨e, he, hex⟩ := hx
  obtain ⟨e', he', hey⟩ := hy
  obtain ⟨i, hi⟩ := List.mem_iff_getElem?.1 he
  obtain ⟨j, hj⟩ := List.mem_iff_getElem?.1 he'
  obtain rfl := h.index_eq hi hj hex hey hxy
  rw [hi] at hj
  cases hj
  rw [hex] at hey
  exact Option.some.inj hey

/-- Equal functions that the world knows are one function. -/
theorem function_eq (h : Fresh w) {f g : Function} (hf : w.Knows f) (hg : w.Knows g) (hfg : f == g) :
    f = g := by
  rcases Function.beq_iff.1 hfg with ⟨id, t, u, rfl, rfl, htu⟩ | ⟨r, s, rfl, rfl, hrs⟩
  · have heq := h.eq_of_identity_eq hf hg (congrArg Identity.context (Token.beq_iff.1 htu))
    rw [Entity.token.inj heq]
  · have heq := h.eq_of_identity_eq hf hg (congrArg Identity.registration (Registration.beq_iff.1 hrs))
    rw [Entity.registration.inj heq]

/-- Equal values over functions that the world knows are one value. -/
theorem value_eq (h : Fresh w) {v u : Value} (hv : v.Forall w.Knows) (hu : u.Forall w.Knows)
    (hvu : v == u) : v = u :=
  Value.eq_of_beq (fun _ _ => h.function_eq) hv hu hvu

end Fresh
end World
end ScriptValues
