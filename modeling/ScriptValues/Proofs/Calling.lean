import ScriptValues.Proofs.History

/-! What a call does, one equation for each thing that can be called and each routine that can run,
and what a call returns: the functions in it were given to the call or captured by a callback. -/

namespace ScriptValues

/-- Everything with an identity inside the value is of one sort. -/
def Value.Over (A : Entity → Prop) (v : Value) : Prop :=
  v.Forall fun f => A f.entity

namespace Value

variable {A : Entity → Prop}

theorem Over.mono {B : Entity → Prop} {v : Value} (h : v.Over A) (hAB : ∀ x, A x → B x) : v.Over B :=
  fun f hf => hAB _ (h f hf)

theorem over_of_functions_eq_nil {v : Value} (h : v.functions = []) : v.Over A := by
  intro f hf
  rw [h] at hf
  cases hf

theorem over_of_functions_subset {v : Value} {args : List Value}
    (h : v.functions ⊆ functionsOfItems args) (hargs : ∀ a ∈ args, a.Over A) : v.Over A :=
  fun f hf => forall_list.2 hargs f (h hf)

end Value

namespace Behaviour

/-- The same for the value that a behaviour has captured. -/
def Over (A : Entity → Prop) : Behaviour → Prop
  | constant v => v.Over A
  | _ => True

theorem Over.mono {A B : Entity → Prop} {b : Behaviour} (h : b.Over A) (hAB : ∀ x, A x → B x) :
    b.Over B := by
  cases b with
  | constant v => exact Value.Over.mono h hAB
  | _ => trivial

end Behaviour

namespace World

variable {w w' : World} {routine : RoutineId} {args rest : List Value} {r : Routine} {f : Function}
  {v : Value} {A : Entity → Prop}

/-- How a routine returns: with what its computation returns or what it has captured, or with what
the calls return that it forwards. -/
inductive Returns (w : World) (args : List Value) (r : Routine) : Value → Prop where
  | plain {c : Computation} {v : Value} : r.behaviour = .plain c →
      (c.run r.memory args).1 = .ok v → Returns w args r v
  | constant {v : Value} : r.behaviour = .constant v → Returns w args r v
  | forward {f : Function} {rest : List Value} {v : Value} : r.behaviour = .forward →
      target args = .ok (f, rest) → (w.call f rest).1 = .ok v → Returns w args r v
  | forwardEach {f : Function} {rest vs : List Value} : r.behaviour = .forwardEach →
      target args = .ok (f, rest) → (w.callEach f rest).1 = .ok vs → Returns w args r (.list vs)

theorem call_eq_ok (h : (w.call f args).1 = .ok v) :
    ∃ q, f = .host q ∧ (w.perform q.callback.routine args).1 = .ok v := by
  unfold call at h
  split at h
  · cases h
  · next q =>
    refine ⟨q, rfl, ?_⟩
    split at h
    · next hperform =>
      rw [hperform]
      cases h
      rfl
    · cases h

theorem perform_eq_ok (h : (w.perform routine args).1 = .ok v) :
    ∃ r, w.routines[routine.index]? = some r ∧ w.Returns args r v := by
  unfold perform at h
  split at h
  · cases h
  · next r hr =>
    refine ⟨r, hr, ?_⟩
    split at h
    · next hb => exact .plain hb h
    · next hb =>
      cases h
      exact .constant hb
    · next hb =>
      split at h
      · cases h
      · next ht =>
        split at h
        · next hcall =>
          cases h
          exact .forward hb ht (by rw [hcall])
        · cases h
    · next hb =>
      split at h
      · cases h
      · next ht =>
        split at h
        · next heach =>
          cases h
          exact .forwardEach hb ht (by rw [heach])
        · cases h

theorem callEach_cons_eq_ok {a : Value} {vs : List Value}
    (h : (w.callEach f (a :: rest)).1 = .ok vs) : ∃ u us, vs = u :: us ∧
      (w.call f [a]).1 = .ok u ∧ ((w.call f [a]).2.callEach f rest).1 = .ok us := by
  unfold callEach at h
  split at h
  · cases h
  · next u w' hcall =>
    split at h
    · cases h
    · next us w'' heach =>
      cases h
      rw [hcall, heach]
      exact ⟨u, us, rfl, rfl, rfl⟩

section Routines

variable {routine : RoutineId} {r : Routine} (hr : w.routines[routine.index]? = some r)
include hr

theorem perform_plain {c : Computation} (hb : r.behaviour = .plain c) (args : List Value) :
    w.perform routine args = ((c.run r.memory args).1, w.remember routine (c.run r.memory args).2) := by
  rw [perform, hr]
  simp only [hb]

theorem perform_constant {v : Value} (hb : r.behaviour = .constant v) (args : List Value) :
    w.perform routine args = (.ok v, w) := by
  rw [perform, hr]
  simp only [hb]

theorem perform_forward (hb : r.behaviour = .forward) (args : List Value) :
    w.perform routine args = match target args with
      | .error text => (.error text, w)
      | .ok (f, rest) => ((w.call f rest).1.mapError Failure.message, (w.call f rest).2) := by
  rw [perform, hr]
  simp only [hb]
  split
  · next ht => rw [ht]
  · next f rest ht =>
    rw [ht]
    dsimp only
    generalize w.call f rest = p
    obtain ⟨e | v, w'⟩ := p <;> rfl

theorem perform_forwardEach (hb : r.behaviour = .forwardEach) (args : List Value) :
    w.perform routine args = match target args with
      | .error text => (.error text, w)
      | .ok (f, rest) =>
        (((w.callEach f rest).1.map Value.list).mapError Failure.message, (w.callEach f rest).2) := by
  rw [perform, hr]
  simp only [hb]
  split
  · next ht => rw [ht]
  · next f rest ht =>
    rw [ht]
    dsimp only
    generalize w.callEach f rest = p
    obtain ⟨e | vs, w'⟩ := p <;> rfl

end Routines

/-- Every routine behaves in one way. -/
def AllBehave (P : Behaviour → Prop) (w : World) : Prop :=
  ∀ b ∈ w.routines.map (·.behaviour), P b

namespace AllBehave

variable {P : Behaviour → Prop}

theorem quiet (h : w.AllBehave P) (hq : Quiet w w') : w'.AllBehave P := by
  rw [AllBehave, hq.behaviours]
  exact h

theorem newCallback (h : w.AllBehave P) {b : Behaviour} (hb : P b) :
    (w.newCallback b).2.AllBehave P := by
  intro b' hb'
  change b' ∈ (w.routines.push ⟨b, 0⟩).map (·.behaviour) at hb'
  rw [Array.map_push, Array.mem_push] at hb'
  rcases hb' with hb' | rfl
  · exact h b' hb'
  · exact hb

theorem of_getElem? (h : w.AllBehave P) {i : Nat} (hr : w.routines[i]? = some r) : P r.behaviour :=
  h r.behaviour (Array.mem_map_of_mem (Array.mem_of_getElem? hr))

end AllBehave

/-- The routine in this place has captured the value. -/
def Captures (w : World) (k : Nat) (v : Value) : Prop :=
  (w.routines.map (·.behaviour))[k]? = some (.constant v)

theorem Captures.quiet {k : Nat} (h : w'.Captures k v) (hq : Quiet w w') : w.Captures k v := by
  rwa [Captures, ← hq.behaviours]

/-- What the callbacks have captured is of one sort. -/
def Over (A : Entity → Prop) (w : World) : Prop :=
  ∀ b ∈ w.routines.map (·.behaviour), b.Over A

theorem Over.mono {B : Entity → Prop} (h : w.Over A) (hAB : ∀ x, A x → B x) : w.Over B :=
  fun b hb => (h b hb).mono hAB

theorem Over.quiet (h : w.Over A) (hq : Quiet w w') : w'.Over A :=
  AllBehave.quiet h hq

theorem Over.newCallback (h : w.Over A) {b : Behaviour} (hb : b.Over A) :
    (w.newCallback b).2.Over A :=
  AllBehave.newCallback h hb

theorem Over.constant (h : w.Over A) {i : Nat} {v : Value} (hr : w.routines[i]? = some r)
    (hv : r.behaviour = .constant v) : v.Over A := by
  have hover : r.behaviour.Over A := AllBehave.of_getElem? h hr
  rwa [hv] at hover

theorem over_target (hargs : ∀ a ∈ args, a.Over A) (ht : target args = .ok (f, rest)) :
    ∀ a ∈ rest, a.Over A := by
  intro a ha
  apply hargs
  rw [target_eq_ok ht]
  exact List.mem_cons_of_mem _ ha

mutual
/-- By the measure of the calls themselves, since a routine forwards fewer arguments than it has. -/
theorem over_call {w : World} {f : Function} {args : List Value} {v : Value} (hw : w.Over A)
    (hargs : ∀ a ∈ args, a.Over A) (h : (w.call f args).1 = .ok v) : v.Over A := by
  obtain ⟨q, rfl, hperform⟩ := call_eq_ok h
  exact over_perform hw hargs hperform
termination_by 3 * args.length + 1

theorem over_perform {w : World} {routine : RoutineId} {args : List Value} {v : Value}
    (hw : w.Over A) (hargs : ∀ a ∈ args, a.Over A) (h : (w.perform routine args).1 = .ok v) :
    v.Over A := by
  obtain ⟨r, hr, hreturns⟩ := perform_eq_ok h
  cases hreturns with
  | @plain c _ hb hrun => exact Value.over_of_functions_subset (c.functions_subset _ _ _ hrun) hargs
  | constant hb => exact hw.constant hr hb
  | forward hb ht hcall =>
    have hlength := length_target ht
    exact over_call hw (over_target hargs ht) hcall
  | forwardEach hb ht heach =>
    have hlength := length_target ht
    exact Value.forall_list.2 (over_callEach hw (over_target hargs ht) heach)
termination_by 3 * args.length

theorem over_callEach {w : World} {f : Function} {args vs : List Value} (hw : w.Over A)
    (hargs : ∀ a ∈ args, a.Over A) (h : (w.callEach f args).1 = .ok vs) : ∀ v ∈ vs, v.Over A := by
  cases args with
  | nil =>
    unfold callEach at h
    cases h
    exact nofun
  | cons a rest =>
    obtain ⟨ha, hrest⟩ := List.forall_mem_cons.1 hargs
    obtain ⟨u, us, rfl, hu, hus⟩ := callEach_cons_eq_ok h
    have hw' : (w.call f [a]).2.Over A := hw.quiet (quiet_call w f [a])
    refine List.forall_mem_cons.2 ⟨?_, ?_⟩
    · exact over_call hw (List.forall_mem_singleton.2 ha) hu
    · exact over_callEach hw' hrest hus
termination_by 3 * args.length + 2
end

end World
end ScriptValues
