import ScriptValues.Proofs.Tracing

/-! Where the functions in the result of a call are from: each of them came with the arguments, or one
of the routines that run in the call has captured it. -/

namespace ScriptValues.World

inductive Supplied (w : World) (args : List Value) (trace : List Happening) (g : Function) : Prop where
  | given : g ∈ Value.functionsOfItems args → Supplied w args trace g
  | captured {k : RoutineId} {given : List Value} {result : Except String Value} {v : Value} :
      .run k given result ∈ trace → w.Captures k.index v → g ∈ v.functions → Supplied w args trace g

variable {w w' : World} {args rest : List Value} {a b : List Happening} {f g : Function} {v : Value}

theorem Supplied.mono (h : w'.Supplied rest a g) (hw : Quiet w w')
    (hargs : Value.functionsOfItems rest ⊆ Value.functionsOfItems args) (htrace : a ⊆ b) :
    w.Supplied args b g := by
  cases h with
  | given hg => exact .given (hargs hg)
  | captured hrun hv hg => exact .captured (htrace hrun) (hv.quiet hw) hg

theorem functions_target (ht : target args = .ok (f, rest)) :
    Value.functionsOfItems rest ⊆ Value.functionsOfItems args := by
  rw [target_eq_ok ht, Value.functionsOfItems]
  exact List.subset_append_right _ _

mutual
theorem call_supplied (w : World) (f : Function) (args : List Value) {v : Value}
    (h : (w.call f args).1 = .ok v) : ∀ g ∈ v.functions, w.Supplied args (w.callTrace f args) g := by
  intro g hg
  obtain ⟨q, rfl, hperform⟩ := call_eq_ok h
  have hran := perform_supplied w q.callback.routine args hperform g hg
  rw [callTrace]
  exact hran.mono (.refl w) (List.Subset.refl _) (List.subset_cons_self _ _)
termination_by 3 * args.length + 1

theorem perform_supplied (w : World) (routine : RoutineId) (args : List Value) {v : Value}
    (h : (w.perform routine args).1 = .ok v) :
    ∀ g ∈ v.functions, w.Supplied args (w.performTrace routine args) g := by
  intro g hg
  obtain ⟨r, hr, hreturns⟩ := perform_eq_ok h
  cases hreturns with
  | plain hb hrun => exact .given (Computation.functions_subset _ _ _ _ hrun hg)
  | constant hb =>
    rw [performTrace_constant hr hb]
    refine .captured (List.mem_singleton_self _) ?_ hg
    rw [Captures, Array.getElem?_map, hr, Option.map_some, hb]
  | forward hb ht hcall =>
    have hlength := length_target ht
    have hcalled := call_supplied w _ _ hcall g hg
    rw [performTrace_forward hr hb, ht]
    exact hcalled.mono (.refl w) (functions_target ht) (List.subset_cons_self _ _)
  | forwardEach hb ht heach =>
    have hlength := length_target ht
    have hcalled := callEach_supplied w _ _ heach g hg
    rw [performTrace_forwardEach hr hb, ht]
    exact hcalled.mono (.refl w) (functions_target ht) (List.subset_cons_self _ _)
termination_by 3 * args.length

theorem callEach_supplied (w : World) (f : Function) (args : List Value) {vs : List Value}
    (h : (w.callEach f args).1 = .ok vs) :
    ∀ g ∈ Value.functionsOfItems vs, w.Supplied args (w.callEachTrace f args) g := by
  intro g hg
  cases args with
  | nil =>
    rw [callEach_nil] at h
    cases h
    cases hg
  | cons a rest =>
    obtain ⟨u, us, rfl, hu, hus⟩ := callEach_cons_eq_ok h
    rw [callEachTrace, hu]
    rcases List.mem_append.1 hg with hg | hg
    · have hfirst := call_supplied w f [a] hu g hg
      refine hfirst.mono (.refl w) ?_ (List.subset_append_left _ _)
      simp [Value.functionsOfItems]
    · have hlater := callEach_supplied (w.call f [a]).2 f rest hus g hg
      refine hlater.mono (quiet_call w f [a]) ?_ (List.subset_append_right _ _)
      exact List.subset_append_right _ _
termination_by 3 * args.length + 2
end

end ScriptValues.World
