import ScriptValues.Callback.Standard
import ScriptValues.Proofs.Calling

/-! What happens inside a call, in order: calls begin and routines run. Every host function that is
called runs the routine of its own callback once, right then and with the same arguments, a compiler
function runs nothing, and the memory of a routine is what its runs make of it. -/

namespace ScriptValues

inductive Happening where
  | call (f : Function) (args : List Value) (answer : Except Failure Value)
  | run (routine : RoutineId) (args : List Value) (result : Except String Value)

namespace Happening

/-- The runs of one routine: the arguments and the result of each. -/
def runs (k : RoutineId) (trace : List Happening) :
    List (List Value × Except String Value) :=
  trace.filterMap fun
    | call .. => none
    | run routine args result => if routine = k then some (args, result) else none

/-- Calls and runs come in pairs: a call of a host function and then a run of its routine, with the
same arguments and the same outcome. Only calls of compiler functions stand alone. -/
inductive Paired (size : Nat) : List Happening → Prop where
  | nil : Paired size []
  | refused {id : UInt32} {t : Token} {args : List Value} {later : List Happening} :
      Paired size later → Paired size (call (.compiler id t) args (.error (.notCallable id)) :: later)
  | ran {r : Registration} {args : List Value} {result : Except String Value}
      {later : List Happening} : r.callback.routine.index < size → Paired size later →
      Paired size (call (.host r) args (result.mapError .callback) ::
        run r.callback.routine args result :: later)

variable {k : RoutineId} {a b : List Happening} {size : Nat}

theorem runs_append : runs k (a ++ b) = runs k a ++ runs k b :=
  List.filterMap_append

@[simp] theorem runs_call (f : Function) (args : List Value) (answer : Except Failure Value) :
    runs k (call f args answer :: a) = runs k a :=
  rfl

theorem runs_run (routine : RoutineId) (args : List Value) (result : Except String Value) :
    runs k (run routine args result :: a) =
      (if routine = k then [(args, result)] else []) ++ runs k a := by
  unfold runs
  rw [List.filterMap_cons]
  by_cases h : routine = k <;> simp [h]

namespace Paired

theorem append (ha : Paired size a) (hb : Paired size b) : Paired size (a ++ b) := by
  induction ha with
  | nil => exact hb
  | refused _ ih => exact .refused ih
  | ran hlt _ ih => exact .ran hlt ih

theorem mono {size' : Nat} (h : Paired size a) (hle : size ≤ size') : Paired size' a := by
  induction h with
  | nil => exact .nil
  | refused _ ih => exact .refused ih
  | ran hlt _ ih => exact .ran (Nat.lt_of_lt_of_le hlt hle) ih

/-- A routine that is not there does not run. -/
theorem runs_eq_nil (h : Paired size a) (hk : size ≤ k.index) : runs k a = [] := by
  induction h with
  | nil => rfl
  | refused _ ih => exact ih
  | @ran r args result later hlt _ ih =>
    have hne : r.callback.routine ≠ k := by
      rintro rfl
      omega
    rw [runs_call, runs_run, if_neg hne, ih]
    rfl

end Paired
end Happening

namespace Computation

/-- Runs one after the other, each with the memory that the one before it has left. -/
def replay (c : Computation) : Nat → List (List Value) → List (Except String Value) × Nat
  | memory, [] => ([], memory)
  | memory, args :: later =>
    let rest := c.replay (c.run memory args).2 later
    ((c.run memory args).1 :: rest.1, rest.2)

theorem replay_append (c : Computation) (memory : Nat) (a b : List (List Value)) :
    c.replay memory (a ++ b) =
      ((c.replay memory a).1 ++ (c.replay (c.replay memory a).2 b).1,
        (c.replay (c.replay memory a).2 b).2) := by
  induction a generalizing memory with
  | nil => rfl
  | cons args a ih => simp only [List.cons_append, replay, ih]

/-- The memory is the number of runs. -/
def Counts (c : Computation) : Prop :=
  ∀ memory args, (c.run memory args).2 = memory + 1

theorem counts_counter : counter.Counts :=
  fun _ _ => rfl

/-- The results of a computation that counts its runs, from the memory that the first one found. -/
theorem Counts.replay {c : Computation} (h : c.Counts)
    {runs : List (List Value × Except String Value)} {memory memory' : Nat}
    (hruns : c.replay memory (runs.map (·.1)) = (runs.map (·.2), memory')) :
    memory' = memory + runs.length ∧
      ∀ i args result, runs[i]? = some (args, result) → result = (c.run (memory + i) args).1 := by
  induction runs generalizing memory with
  | nil =>
    obtain rfl : memory = memory' := congrArg Prod.snd hruns
    exact ⟨rfl, nofun⟩
  | cons first runs ih =>
    obtain ⟨hresults, hmemory⟩ := Prod.mk.inj hruns
    obtain ⟨hfirst, hlater⟩ := List.cons.inj hresults
    rw [h memory first.1] at hlater hmemory
    obtain ⟨hcount, hruns'⟩ := ih (Prod.ext hlater hmemory)
    refine ⟨by rw [hcount, List.length_cons]; omega, ?_⟩
    intro i args result hi
    cases i with
    | zero =>
      obtain rfl : first = (args, result) := Option.some.inj hi
      exact hfirst.symm
    | succ i =>
      rw [← Nat.add_assoc, Nat.add_right_comm]
      exact hruns' i args result hi

end Computation

namespace World

open Happening (runs Paired)

mutual
/-- The call with its answer, and then what it runs. -/
def callTrace (w : World) (f : Function) (args : List Value) : List Happening :=
  match f with
  | .compiler .. => [.call f args (w.call f args).1]
  | .host r => .call f args (w.call f args).1 :: w.performTrace r.callback.routine args
termination_by 3 * args.length + 1

/-- A run, and then what the routine calls. A routine that is not there does not run. -/
def performTrace (w : World) (routine : RoutineId) (args : List Value) : List Happening :=
  match w.routines[routine.index]? with
  | none => []
  | some r =>
    .run routine args (w.perform routine args).1 ::
      match r.behaviour with
      | .forward =>
        match _h : target args with
        | .error _ => []
        | .ok (f, rest) => w.callTrace f rest
      | .forwardEach =>
        match _h : target args with
        | .error _ => []
        | .ok (f, rest) => w.callEachTrace f rest
      | _ => []
termination_by 3 * args.length
decreasing_by
  all_goals
    have := length_target _h
    omega

/-- One call after the other, up to the first that fails. -/
def callEachTrace (w : World) (f : Function) (args : List Value) : List Happening :=
  match args with
  | [] => []
  | a :: rest =>
    w.callTrace f [a] ++
      match (w.call f [a]).1 with
      | .error _ => []
      | .ok _ => (w.call f [a]).2.callEachTrace f rest
termination_by 3 * args.length + 2
end

variable {w w' w'' : World} {k routine : RoutineId} {r : Routine} {args rest : List Value}
  {f : Function} {a b : List Happening}

theorem call_host (w : World) (q : Registration) (args : List Value) :
    w.call (.host q) args = ((w.perform q.callback.routine args).1.mapError .callback,
      (w.perform q.callback.routine args).2) := by
  rw [call]
  generalize w.perform q.callback.routine args = p
  obtain ⟨e | v, w'⟩ := p <;> rfl

theorem call_compiler (w : World) (id : UInt32) (t : Token) (args : List Value) :
    w.call (.compiler id t) args = (.error (.notCallable id), w) := by
  rw [call]

theorem callEach_nil (w : World) (f : Function) : w.callEach f [] = (.ok [], w) := by
  rw [callEach]

theorem world_callEach_cons (w : World) (f : Function) (a : Value) (rest : List Value) :
    (w.callEach f (a :: rest)).2 = match (w.call f [a]).1 with
      | .error _ => (w.call f [a]).2
      | .ok _ => ((w.call f [a]).2.callEach f rest).2 := by
  rw [callEach]
  generalize w.call f [a] = p
  obtain ⟨e | v, w'⟩ := p
  · rfl
  · dsimp only
    generalize w'.callEach f rest = q
    obtain ⟨e | vs, w''⟩ := q <;> rfl

/-- From one world to the next each routine has come to its memory by its runs in the trace. -/
def Follows (w w' : World) (trace : List Happening) : Prop :=
  ∀ (k : RoutineId) (r : Routine), w.routines[k.index]? = some r →
    match r.behaviour with
    | .plain c => ∃ memory, w'.routines[k.index]? = some { r with memory } ∧
        c.replay r.memory ((runs k trace).map (·.1)) = ((runs k trace).map (·.2), memory)
    | _ => w'.routines[k.index]? = some r

namespace Follows

theorem refl (w : World) : Follows w w [] := by
  intro k r hr
  split
  · exact ⟨r.memory, hr, rfl⟩
  · exact hr

theorem plain {c : Computation} (h : Follows w w' a) (hr : w.routines[k.index]? = some r)
    (hc : r.behaviour = .plain c) : ∃ memory, w'.routines[k.index]? = some { r with memory } ∧
      c.replay r.memory ((runs k a).map (·.1)) = ((runs k a).map (·.2), memory) := by
  have hk := h k r hr
  rw [hc] at hk ⊢
  exact hk

theorem of_not_plain (h : Follows w w' a) (hr : w.routines[k.index]? = some r)
    (hb : ∀ c, r.behaviour ≠ .plain c) : w'.routines[k.index]? = some r := by
  have hk := h k r hr
  split at hk
  · next c hc => exact absurd hc (hb c)
  · exact hk

theorem trans (h : Follows w w' a) (h' : Follows w' w'' b) : Follows w w'' (a ++ b) := by
  intro k r hr
  split
  · next c hc =>
    obtain ⟨memory, hr', hreplay⟩ := h.plain hr hc
    obtain ⟨memory', hr'', hreplay'⟩ := h'.plain hr' hc
    refine ⟨memory', hr'', ?_⟩
    dsimp only at hreplay'
    rw [Happening.runs_append, List.map_append, List.map_append, Computation.replay_append, hreplay,
      hreplay']
  · next hb => exact h'.of_not_plain (h.of_not_plain hr hb) hb

/-- What a computation remembers after the trace comes from what it remembered before. -/
theorem back {c : Computation} (h : Follows w w' a) (hsize : w'.routines.size = w.routines.size)
    (hr : w'.routines[k.index]? = some r) (hc : r.behaviour = .plain c) :
    ∃ r₀, w.routines[k.index]? = some r₀ ∧ r₀.behaviour = .plain c ∧
      c.replay r₀.memory ((runs k a).map (·.1)) = ((runs k a).map (·.2), r.memory) := by
  obtain ⟨hlt, -⟩ := Array.getElem?_eq_some_iff.1 hr
  have hr₀ : w.routines[k.index]? = some w.routines[k.index] :=
    Array.getElem?_eq_getElem (hsize ▸ hlt)
  by_cases hb : ∃ d, w.routines[k.index].behaviour = .plain d
  · obtain ⟨d, hd⟩ := hb
    obtain ⟨memory, hr', hreplay⟩ := h.plain hr₀ hd
    obtain rfl : r = { w.routines[k.index] with memory } := Option.some.inj (hr.symm.trans hr')
    obtain rfl : d = c := Behaviour.plain.inj (hd.symm.trans hc)
    exact ⟨_, hr₀, hd, hreplay⟩
  · have hr' := h.of_not_plain hr₀ fun d hd => hb ⟨d, hd⟩
    obtain rfl : r = w.routines[k.index] := Option.some.inj (hr.symm.trans hr')
    exact absurd ⟨c, hc⟩ hb

/-- A routine that has not run is as it was. -/
theorem unchanged (h : Follows w w' a) (hr : w.routines[k.index]? = some r) (hk : runs k a = []) :
    w'.routines[k.index]? = some r := by
  by_cases hb : ∃ c, r.behaviour = .plain c
  · obtain ⟨c, hc⟩ := hb
    obtain ⟨memory, hr', hreplay⟩ := h.plain hr hc
    rw [hk] at hreplay
    obtain rfl : r.memory = memory := congrArg Prod.snd hreplay
    exact hr'
  · exact h.of_not_plain hr fun c hc => hb ⟨c, hc⟩

/-- One run of a computation. -/
theorem run {c : Computation} (hr : w.routines[k.index]? = some r) (hc : r.behaviour = .plain c)
    (args : List Value) : Follows w (w.remember k (c.run r.memory args).2)
      [.run k args (c.run r.memory args).1] := by
  intro j q hq
  by_cases hjk : k = j
  · subst hjk
    obtain rfl : r = q := Option.some.inj (hr.symm.trans hq)
    rw [hc]
    refine ⟨(c.run r.memory args).2, ?_, ?_⟩
    · simp [remember, Array.getElem?_modify, hr, hc]
    · rw [Happening.runs_run, if_pos rfl]
      rfl
  · have hindex : k.index ≠ j.index := fun h => hjk (congrArg RoutineId.mk h)
    have hq' : (w.remember k (c.run r.memory args).2).routines[j.index]? = some q := by
      simp [remember, Array.getElem?_modify, hindex, hq]
    have hruns : runs j [.run k args (c.run r.memory args).1] = [] := by
      rw [Happening.runs_run, if_neg hjk]
      rfl
    split
    · exact ⟨q.memory, hq', by rw [hruns]; rfl⟩
    · exact hq'

/-- A run that computes nothing itself, and then what it calls. -/
theorem forwarded (hr : w.routines[k.index]? = some r) (hb : ∀ c, r.behaviour ≠ .plain c)
    {args : List Value} {result : Except String Value} (h : Follows w w' a) :
    Follows w w' (.run k args result :: a) := by
  intro j q hq
  split
  · next c hc =>
    have hjk : k ≠ j := by
      rintro rfl
      obtain rfl : r = q := Option.some.inj (hr.symm.trans hq)
      exact hb c hc
    rw [Happening.runs_run, if_neg hjk, List.nil_append]
    exact h.plain hq hc
  · next hb' => exact h.of_not_plain hq hb'

end Follows

section Runs

variable (hr : w.routines[routine.index]? = some r)
include hr

theorem performTrace_plain {c : Computation} (hb : r.behaviour = .plain c) (args : List Value) :
    w.performTrace routine args = [.run routine args (c.run r.memory args).1] := by
  rw [performTrace, hr, perform_plain hr hb]
  simp only [hb]

theorem performTrace_constant {v : Value} (hb : r.behaviour = .constant v) (args : List Value) :
    w.performTrace routine args = [.run routine args (.ok v)] := by
  rw [performTrace, hr, perform_constant hr hb]
  simp only [hb]

theorem performTrace_forward (hb : r.behaviour = .forward) (args : List Value) :
    w.performTrace routine args = .run routine args (w.perform routine args).1 ::
      match target args with
      | .error _ => []
      | .ok (f, rest) => w.callTrace f rest := by
  rw [performTrace, hr]
  simp only [hb]
  split
  · next ht => rw [ht]
  · next f rest ht => rw [ht]

theorem performTrace_forwardEach (hb : r.behaviour = .forwardEach) (args : List Value) :
    w.performTrace routine args = .run routine args (w.perform routine args).1 ::
      match target args with
      | .error _ => []
      | .ok (f, rest) => w.callEachTrace f rest := by
  rw [performTrace, hr]
  simp only [hb]
  split
  · next ht => rw [ht]
  · next f rest ht => rw [ht]

end Runs

mutual
/-- By the measure of the calls themselves, as everything about calls. -/
theorem follows_call (w : World) (f : Function) (args : List Value) :
    Follows w (w.call f args).2 (w.callTrace f args) := by
  cases f with
  | compiler id t =>
    rw [callTrace, call_compiler]
    exact Follows.refl w
  | host q =>
    rw [callTrace, call_host]
    exact follows_perform w q.callback.routine args
termination_by 3 * args.length + 1

theorem follows_perform (w : World) (routine : RoutineId) (args : List Value) :
    Follows w (w.perform routine args).2 (w.performTrace routine args) := by
  cases hr : w.routines[routine.index]? with
  | none =>
    rw [performTrace, perform, hr]
    exact Follows.refl w
  | some r =>
    cases hb : r.behaviour with
    | plain c =>
      rw [performTrace_plain hr hb, perform_plain hr hb]
      exact Follows.run hr hb args
    | constant v =>
      rw [performTrace_constant hr hb, perform_constant hr hb]
      exact (Follows.refl w).forwarded hr (by simp [hb])
    | forward =>
      rw [performTrace_forward hr hb, perform_forward hr hb]
      refine Follows.forwarded hr (by simp [hb]) ?_
      cases ht : target args with
      | error text => exact Follows.refl w
      | ok p =>
        have hlength := length_target ht
        exact follows_call w p.1 p.2
    | forwardEach =>
      rw [performTrace_forwardEach hr hb, perform_forwardEach hr hb]
      refine Follows.forwarded hr (by simp [hb]) ?_
      cases ht : target args with
      | error text => exact Follows.refl w
      | ok p =>
        have hlength := length_target ht
        exact follows_callEach w p.1 p.2
termination_by 3 * args.length

theorem follows_callEach (w : World) (f : Function) (args : List Value) :
    Follows w (w.callEach f args).2 (w.callEachTrace f args) := by
  cases args with
  | nil =>
    rw [callEachTrace, callEach_nil]
    exact Follows.refl w
  | cons a rest =>
    have hfirst := follows_call w f [a]
    rw [callEachTrace, world_callEach_cons]
    cases hcall : (w.call f [a]).1 with
    | error e =>
      have hnone := Follows.refl (w.call f [a]).2
      exact hfirst.trans hnone
    | ok v => exact hfirst.trans (follows_callEach (w.call f [a]).2 f rest)
termination_by 3 * args.length + 2
end

/-- A registration whose callback runs one of the first so many routines. -/
def RunsBelow (size : Nat) : Entity → Prop
  | .token _ => True
  | .registration q => q.callback.routine.index < size

theorem size_call (w : World) (f : Function) (args : List Value) :
    (w.call f args).2.routines.size = w.routines.size := by
  have hsize := congrArg Array.size (quiet_call w f args).behaviours
  rwa [Array.size_map, Array.size_map] at hsize

theorem runsBelow_target {size : Nat} (hargs : ∀ v ∈ args, v.Over (RunsBelow size))
    (ht : target args = .ok (f, rest)) : RunsBelow size f.entity := by
  rw [target_eq_ok ht] at hargs
  exact Value.forall_function.1 (hargs _ List.mem_cons_self)

mutual
theorem paired_call {size : Nat} (w : World) (hw : w.routines.size = size) (f : Function)
    (args : List Value) (hf : RunsBelow size f.entity)
    (hargs : ∀ v ∈ args, v.Over (RunsBelow size)) : Paired size (w.callTrace f args) := by
  cases f with
  | compiler id t =>
    rw [callTrace, call_compiler]
    exact .refused .nil
  | host q =>
    obtain ⟨later, htrace, hlater⟩ := paired_perform w hw q.callback.routine args hf hargs
    rw [callTrace, call_host, htrace]
    exact .ran hf hlater
termination_by 3 * args.length + 1

theorem paired_perform {size : Nat} (w : World) (hw : w.routines.size = size) (routine : RoutineId)
    (args : List Value) (hroutine : routine.index < size)
    (hargs : ∀ v ∈ args, v.Over (RunsBelow size)) :
    ∃ later, w.performTrace routine args = .run routine args (w.perform routine args).1 :: later ∧
      Paired size later := by
  have hr : w.routines[routine.index]? = some w.routines[routine.index] :=
    Array.getElem?_eq_getElem (hw ▸ hroutine)
  cases hb : w.routines[routine.index].behaviour with
  | plain c =>
    rw [performTrace_plain hr hb, perform_plain hr hb]
    exact ⟨[], rfl, .nil⟩
  | constant v =>
    rw [performTrace_constant hr hb, perform_constant hr hb]
    exact ⟨[], rfl, .nil⟩
  | forward =>
    rw [performTrace_forward hr hb]
    refine ⟨_, rfl, ?_⟩
    cases ht : target args with
    | error text => exact .nil
    | ok p =>
      have hlength := length_target ht
      exact paired_call w hw p.1 p.2 (runsBelow_target hargs ht) (over_target hargs ht)
  | forwardEach =>
    rw [performTrace_forwardEach hr hb]
    refine ⟨_, rfl, ?_⟩
    cases ht : target args with
    | error text => exact .nil
    | ok p =>
      have hlength := length_target ht
      exact paired_callEach w hw p.1 p.2 (runsBelow_target hargs ht) (over_target hargs ht)
termination_by 3 * args.length

theorem paired_callEach {size : Nat} (w : World) (hw : w.routines.size = size) (f : Function)
    (args : List Value) (hf : RunsBelow size f.entity)
    (hargs : ∀ v ∈ args, v.Over (RunsBelow size)) : Paired size (w.callEachTrace f args) := by
  cases args with
  | nil =>
    rw [callEachTrace]
    exact .nil
  | cons a rest =>
    obtain ⟨ha, hrest⟩ := List.forall_mem_cons.1 hargs
    have hfirst := paired_call w hw f [a] hf (List.forall_mem_singleton.2 ha)
    have hw' : (w.call f [a]).2.routines.size = size := (size_call w f [a]).trans hw
    rw [callEachTrace]
    cases hcall : (w.call f [a]).1 with
    | error e => exact hfirst.append .nil
    | ok v => exact hfirst.append (paired_callEach (w.call f [a]).2 hw' f rest hf hrest)
termination_by 3 * args.length + 2
end

end World
end ScriptValues
