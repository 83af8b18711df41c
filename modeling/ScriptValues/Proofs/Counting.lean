import ScriptValues.Proofs.Wiring

/-! Callbacks run in calls and nowhere else, once for each call. So a callback that counts its runs
counts the calls of the functions over it, whichever way those came to be, and the calls of functions
over other callbacks do not show in its count. -/

namespace ScriptValues

def Command.Calls (c : Command) : Prop :=
  ∃ function args name, c = .act (.call function args name)

namespace Session

open Happening (runs Paired)

/-- What a command calls and runs. -/
def happenings (s : Session) : Command → List Happening
  | .act (.call function args _) =>
    match s.function function, s.evalItems args with
    | .ok f, .ok vs => s.world.callTrace f vs
    | _, _ => []
  | _ => []

/-- What the commands of a run call and run. -/
def trace (s : Session) : List Command → List Happening
  | [] => []
  | c :: cs => s.happenings c ++ (s.step c).2.trace cs

variable {s : Session} {n : UInt64} {cs : List Command} {c : Command}

theorem trace_concat (s : Session) (cs : List Command) (c : Command) :
    s.trace (cs ++ [c]) = s.trace cs ++ (s.after cs).happenings c := by
  induction cs generalizing s with
  | nil => exact List.append_nil _
  | cons d cs ih =>
    rw [List.cons_append, trace, trace, ih, List.append_assoc]
    rfl

theorem happenings_eq_nil (s : Session) (hc : ¬ c.Calls) : s.happenings c = [] := by
  cases c with
  | ask q => rfl
  | act a =>
    cases a with
    | call function args name => exact absurd ⟨function, args, name, rfl⟩ hc
    | _ => rfl

theorem step_extends (s : Session) (hc : ¬ c.Calls) :
    s.world.Extends (s.step c).2.world := by
  cases c with
  | ask q => exact .of_eq rfl
  | act a =>
    simp only [step]
    split
    · exact .of_eq rfl
    · next h =>
      refine (act_change h ?_).extends
      rintro function args name rfl
      exact hc ⟨function, args, name, rfl⟩

section Calls

variable {function : String} {args : List Expr} {name : Option String} {f : Function}
  {vs : List Value}

theorem act_call (hf : s.function function = .ok f) (hvs : s.evalItems args = .ok vs) :
    s.act (.call function args name) = .ok (s.call name f vs) := by
  simp only [act, hf, hvs]
  rfl

theorem happenings_call (hf : s.function function = .ok f) (hvs : s.evalItems args = .ok vs) :
    s.happenings (.act (.call function args name)) = s.world.callTrace f vs := by
  simp only [happenings, hf, hvs]

/-- A call is carried out, or nothing happens. -/
theorem call_carried (s : Session) (function : String) (args : List Expr) (name : Option String) :
    (∃ f vs, s.function function = .ok f ∧ s.evalItems args = .ok vs) ∨
      (s.step (.act (.call function args name))).2 = s ∧
        s.happenings (.act (.call function args name)) = [] := by
  cases hf : s.function function with
  | error fault =>
    have hact : s.act (.call function args name) = .error fault := by
      simp only [act, hf]
      rfl
    exact Or.inr ⟨by simp only [step, hact], by simp only [happenings, hf]⟩
  | ok f =>
    cases hvs : s.evalItems args with
    | error fault =>
      have hact : s.act (.call function args name) = .error fault := by
        simp only [act, hf, hvs]
        rfl
      exact Or.inr ⟨by simp only [step, hact], by simp only [happenings, hf, hvs]⟩
    | ok vs => exact Or.inl ⟨f, vs, rfl, rfl⟩

theorem world_step_call (hf : s.function function = .ok f) (hvs : s.evalItems args = .ok vs) :
    (s.step (.act (.call function args name))).2.world = (s.world.call f vs).2 := by
  simp only [step, act_call hf hvs]
  exact call_world s name f vs

theorem answer_step_call (hf : s.function function = .ok f) (hvs : s.evalItems args = .ok vs) :
    (s.step (.act (.call function args name))).1.answer = .ok (s.call name f vs).1 := by
  simp only [step, act_call hf hvs]

end Calls

theorem step_follows (s : Session) (hc : c.Calls) :
    s.world.Follows (s.step c).2.world (s.happenings c) ∧
      (s.step c).2.world.routines.size = s.world.routines.size := by
  obtain ⟨function, args, name, rfl⟩ := hc
  rcases s.call_carried function args name with ⟨f, vs, hf, hvs⟩ | ⟨hstep, hnone⟩
  · rw [world_step_call hf hvs, happenings_call hf hvs]
    exact ⟨World.follows_call s.world f vs, World.size_call s.world f vs⟩
  · rw [hstep, hnone]
    exact ⟨World.Follows.refl s.world, rfl⟩

theorem paired_happenings (n : UInt64) (cs : List Command) (c : Command) :
    Paired ((start n).after cs).world.routines.size (((start n).after cs).happenings c) := by
  by_cases hc : c.Calls
  · obtain ⟨function, args, name, rfl⟩ := hc
    rcases ((start n).after cs).call_carried function args name with ⟨f, vs, hf, hvs⟩ | ⟨-, hnone⟩
    · rw [happenings_call hf hvs]
      have hheld : ∀ v ∈ vs, v.Over ((start n).after cs).Holds :=
        (over_holds _).evalItems args hvs
      apply World.paired_call _ rfl
      · exact runsBelow_holds (holds_function hf)
      · exact fun v hv => (hheld v hv).mono fun _ => runsBelow_holds
    · rw [hnone]
      exact .nil
  · rw [happenings_eq_nil _ hc]
    exact .nil

theorem paired_trace (n : UInt64) (cs : List Command) :
    Paired ((start n).after cs).world.routines.size ((start n).trace cs) := by
  induction cs using List.reverseRecOn with
  | nil => exact .nil
  | append_singleton cs c ih =>
    have hle : ((start n).after cs).world.routines.size ≤
        ((start n).after (cs ++ [c])).world.routines.size := by
      rw [after_concat]
      by_cases hc : c.Calls
      · exact Nat.le_of_eq (step_follows _ hc).2.symm
      · exact (step_extends _ hc).size_le
    rw [trace_concat]
    exact (ih.append (paired_happenings n cs c)).mono hle

/-- The memory of a computation is what its runs since the start have made of it. -/
theorem replay_trace {k : RoutineId} {r : Routine} {c : Computation}
    (hr : ((start n).after cs).world.routines[k.index]? = some r) (hc : r.behaviour = .plain c) :
    c.replay 0 ((runs k ((start n).trace cs)).map (·.1)) =
      ((runs k ((start n).trace cs)).map (·.2), r.memory) := by
  induction cs using List.reverseRecOn generalizing r with
  | nil => simp [after, run, start] at hr
  | append_singleton cs d ih =>
    rw [after_concat] at hr
    rw [trace_concat, Happening.runs_append, List.map_append, List.map_append]
    by_cases hd : d.Calls
    · obtain ⟨hfollows, hsize⟩ := step_follows ((start n).after cs) hd
      obtain ⟨r₀, hr₀, hc₀, hreplay⟩ := hfollows.back hsize hr hc
      rw [Computation.replay_append, ih hr₀ hc₀, hreplay]
    · rw [happenings_eq_nil _ hd]
      change c.replay 0 (_ ++ []) = (_ ++ [], _)
      rw [List.append_nil, List.append_nil]
      rcases (step_extends _ hd).old_or_new hr with hold | ⟨hnew, hmemory⟩
      · exact ih hold hc
      · -- what is new has not run before
        rw [(paired_trace n cs).runs_eq_nil hnew, hmemory]
        rfl

theorem step_unchanged {k : RoutineId} {r : Routine} (hr : s.world.routines[k.index]? = some r)
    (hruns : runs k (s.happenings c) = []) : (s.step c).2.world.routines[k.index]? = some r := by
  by_cases hc : c.Calls
  · exact (step_follows s hc).1.unchanged hr hruns
  · exact (step_extends s hc).getElem? hr

/-- What a routine does never changes, only what it remembers. -/
theorem exists_routine {k : RoutineId} {r : Routine}
    (hr : (s.after cs).world.routines[k.index]? = some r) (ds : List Command) :
    ∃ memory, (s.after (cs ++ ds)).world.routines[k.index]? = some { r with memory } := by
  induction ds using List.reverseRecOn with
  | nil => exact ⟨r.memory, by rwa [List.append_nil]⟩
  | append_singleton ds d ih =>
    obtain ⟨memory, hmemory⟩ := ih
    rw [← List.append_assoc, after_concat]
    by_cases hd : d.Calls
    · obtain ⟨hfollows, -⟩ := step_follows (s.after (cs ++ ds)) hd
      by_cases hb : ∃ b, r.behaviour = .plain b
      · obtain ⟨b, hb⟩ := hb
        obtain ⟨memory', hmemory', -⟩ := hfollows.plain hmemory hb
        exact ⟨memory', hmemory'⟩
      · exact ⟨memory, hfollows.of_not_plain hmemory fun b hplain => hb ⟨b, hplain⟩⟩
    · exact ⟨memory, (step_extends _ hd).getElem? hmemory⟩

/-- How a call is answered. -/
def reported : Except Failure Value → Answer
  | .ok v => .returned v.report
  | .error e => .failed e

/-- The calls so far account for all that callbacks have done, and for all that they will remember. -/
structure CallsCounted (s : Session) (trace : List Happening) : Prop where
  /-- Other commands run nothing and leave every routine as it is. -/
  calls : ∀ c, ¬ c.Calls → s.happenings c = [] ∧ s.world.Extends (s.step c).2.world
  /-- A call starts with the function and the arguments given, and is answered with what it returns. -/
  answers : ∀ function args name f vs, s.function function = .ok f → s.evalItems args = .ok vs →
    let c : Command := .act (.call function args name)
    (∃ later, s.happenings c = .call f vs (s.world.call f vs).1 :: later) ∧
    (s.step c).1.answer = .ok (reported (s.world.call f vs).1)
  paired : Paired s.world.routines.size trace
  counts : ∀ k r c, s.world.routines[k.index]? = some r → r.behaviour = .plain c → c.Counts →
    r.memory = (runs k trace).length ∧
    ∀ i args result, (runs k trace)[i]? = some (args, result) → result = (c.run i args).1
  numbers : ∀ k r, s.world.routines[k.index]? = some r → r.behaviour = .plain .counter →
    ∀ i args result, (runs k trace)[i]? = some (args, result) →
      result = Except.ok (Value.string (toString (i + 1)))
  /-- What a command does not run it leaves as it is. -/
  apart : ∀ c k r, s.world.routines[k.index]? = some r → runs k (s.happenings c) = [] →
    (s.step c).2.world.routines[k.index]? = some r
  shares : ∀ a p, s.act a = .ok p → s.Shares a p.2
  copies : ∀ f g, s.HoldsFunction f → s.HoldsFunction g → f == g → f.callback? = g.callback?

theorem happenings_start {function : String} {args : List Expr} {name : Option String} {f : Function}
    {vs : List Value} (hf : s.function function = .ok f) (hvs : s.evalItems args = .ok vs) :
    ∃ later, s.happenings (.act (.call function args name)) =
      .call f vs (s.world.call f vs).1 :: later := by
  rw [happenings_call hf hvs]
  cases f with
  | compiler id t => exact ⟨[], by rw [World.callTrace]⟩
  | host r => exact ⟨_, by rw [World.callTrace]⟩

theorem call_answer (s : Session) (name : Option String) (f : Function) (vs : List Value) :
    (s.call name f vs).1 = reported (s.world.call f vs).1 := by
  unfold Session.call
  generalize s.world.call f vs = p
  obtain ⟨e | v, w⟩ := p <;> rfl

theorem counts_trace {k : RoutineId} {r : Routine} {c : Computation}
    (hr : ((start n).after cs).world.routines[k.index]? = some r) (hc : r.behaviour = .plain c)
    (h : c.Counts) : r.memory = (runs k ((start n).trace cs)).length ∧
      ∀ i args result, (runs k ((start n).trace cs))[i]? = some (args, result) →
        result = (c.run i args).1 := by
  have hreplay := h.replay (replay_trace hr hc)
  simpa only [Nat.zero_add] using hreplay

/-- Callbacks run in calls alone, once for each call of a function over them. So the runs of one that
counts are numbered through from one, by whichever of its functions they come, and the runs of other
callbacks do not show in its count. -/
theorem calls_counted (n : UInt64) (cs : List Command) :
    ((start n).after cs).CallsCounted ((start n).trace cs) where
  calls c hc := ⟨happenings_eq_nil _ hc, step_extends _ hc⟩
  answers function args name f vs hf hvs :=
    ⟨happenings_start hf hvs, (answer_step_call hf hvs).trans (congrArg _ (call_answer _ _ _ _))⟩
  paired := paired_trace n cs
  counts k r c hr hc h := counts_trace hr hc h
  numbers k r hr hc i args result hi :=
    (counts_trace hr hc Computation.counts_counter).2 i args result hi
  apart c k r hr hruns := step_unchanged hr hruns
  shares a p h := act_shares h
  copies f g hf hg hfg := by
    rw [(fresh_after n cs).function_eq (made_of_holds hf.holds) (made_of_holds hg.holds) hfg]

def counterShared : List Command :=
  [.act (.newCallback (.plain .counter) (some "ticks")),
    .act (.host "tick()" (.stored "ticks") (some "hosted")),
    .act (.register "tick()" (.stored "ticks") (some "registered")),
    .act (.copyFunction "hosted" (some "copied")),
    .act (.parts ⟨none, none, none, some "tick()", some (.stored "ticks"), []⟩ (some "parts")),
    .act (.parts ⟨some "parts", none, none, none, none, []⟩ (some "copied parts")),
    .act (.build "copied parts" (some "built")),
    .act (.register "invoke()" (.fresh .forward) (some "invoke")),
    .act (.register "other()" (.fresh (.plain .counter)) (some "other")),
    .act (.mint (some "context")),
    .act (.contextFunction "context" 7 (some "compiled"))]

def counterCalled : List Command :=
  [.act (.call "hosted" [] none), .act (.call "other" [] none), .act (.call "built" [.null] none),
    .act (.call "invoke" [.function "registered", .boolean true] none),
    .act (.call "invoke" [.function "compiled"] none), .act (.call "copied" [] none)]

/-- Four functions lead to one counter, one of them by way of another callback, and the calls of the
four are numbered through, whatever is called in between. -/
theorem counterShared_counted :
    let before := (start 1).after counterShared
    let s := (start 1).after (counterShared ++ counterCalled)
    let trace := (start 1).trace (counterShared ++ counterCalled)
    (before.step (.act (.call "compiled" [] none))).1.answer = .ok (.failed (.notCallable 7)) ∧
    (∃ r, s.world.routines[0]? = some r ∧ r.memory = 4) ∧
    (∃ r, s.world.routines[2]? = some r ∧ r.memory = 1) ∧ (runs ⟨0⟩ trace).length = 4 ∧
    ∀ i args result, (runs ⟨0⟩ trace)[i]? = some (args, result) →
      result = Except.ok (Value.string (toString (i + 1))) := by
  intro before s trace
  have hbefore : before.CallsCounted ((start 1).trace counterShared) := calls_counted 1 counterShared
  have hafter : s.CallsCounted trace := calls_counted 1 (counterShared ++ counterCalled)
  have hfour : (runs ⟨0⟩ trace).length = 4 := by decide +kernel
  have hone : (runs ⟨2⟩ trace).length = 1 := by decide +kernel
  have hmade (k : RoutineId)
      (hk : before.world.routines[k.index]? = some ⟨.plain .counter, 0⟩) :
      ∃ r, s.world.routines[k.index]? = some r ∧ r.behaviour = .plain .counter := by
    obtain ⟨memory, hmemory⟩ := exists_routine hk counterCalled
    exact ⟨_, hmemory, rfl⟩
  obtain ⟨r, hr, hcounter⟩ := hmade ⟨0⟩ rfl
  obtain ⟨q, hq, hcounter'⟩ := hmade ⟨2⟩ rfl
  have hr4 := (hafter.counts ⟨0⟩ r _ hr hcounter Computation.counts_counter).1
  have hq1 := (hafter.counts ⟨2⟩ q _ hq hcounter' Computation.counts_counter).1
  refine ⟨?_, ⟨r, hr, hr4.trans hfour⟩, ⟨q, hq, hq1.trans hone⟩, hfour, ?_⟩
  · have hanswer := (hbefore.answers "compiled" [] none _ [] rfl rfl).2
    rwa [World.call_compiler] at hanswer
  · exact hafter.numbers ⟨0⟩ r hr hcounter

end Session
end ScriptValues
