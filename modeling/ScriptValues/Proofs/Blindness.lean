import ScriptValues.Callback.Standard
import ScriptValues.Proofs.Calling
import ScriptValues.Proofs.Renumbering

/-! Worlds with other serials. A computation is blind when it does the same whichever serials its
arguments show; where all computations are blind, so are all calls. -/

namespace ScriptValues

/-- Other serials in the arguments lead to other serials in the result and to nothing else. -/
def Computation.Blind (c : Computation) : Prop :=
  ∀ first memory args, c.run memory (args.map (Value.renumber first)) =
    ((c.run memory args).1.map (Value.renumber first), (c.run memory args).2)

namespace Computation

theorem blind_null : null.Blind :=
  fun _ _ _ => rfl

theorem blind_echo : echo.Blind := by
  intro first memory args
  cases args <;> rfl

theorem blind_arguments : arguments.Blind := by
  intro first memory args
  exact congrArg (fun v => (Except.ok v, memory)) (Value.renumber_list first args).symm

theorem blind_count : count.Blind := by
  intro first memory args
  simp only [count, pure, List.length_map]
  rfl

theorem blind_types : types.Blind := by
  intro first memory args
  have htypes : typeNames (args.map (Value.renumber first)) = typeNames args := by
    simp only [typeNames, List.map_map, Function.comp_def, Value.typeName_renumber]
  have hsame : (typeNames args).map (Value.renumber first) = typeNames args := by
    rw [typeNames, List.map_map]
    rfl
  simp only [types, pure, htypes, Except.map, Value.renumber_list, hsame]

theorem blind_fail (text : String) : (fail text).Blind :=
  fun _ _ _ => rfl

theorem blind_showFail : showFail.Blind := by
  intro first memory args
  simp only [showFail, pure, List.map_map, Function.comp_def, Value.display_renumber]
  rfl

theorem blind_counter : counter.Blind :=
  fun _ _ _ => rfl

/-- The computations that every host offers. -/
def standard (text : String) : List Computation :=
  [null, echo, arguments, count, types, fail text, showFail, counter]

theorem blind_standard (text : String) : ∀ c ∈ standard text, c.Blind := by
  simp only [standard, List.forall_mem_cons]
  exact ⟨blind_null, blind_echo, blind_arguments, blind_count, blind_types, blind_fail text,
    blind_showFail, blind_counter, List.forall_mem_nil _⟩

end Computation

namespace Behaviour

def renumber (first : UInt64) : Behaviour → Behaviour
  | constant v => constant (v.renumber first)
  | b => b

def Blind : Behaviour → Prop
  | plain c => c.Blind
  | _ => True

end Behaviour

def Routine.renumber (first : UInt64) (r : Routine) : Routine :=
  { r with behaviour := r.behaviour.renumber first }

def Event.renumber (first : UInt64) : Event → Event
  | minted c => minted (c.renumber first)
  | dropped c => dropped (c.renumber first)
  | registered r => registered r

def Origin.renumber (first : UInt64) : Origin → Origin
  | .compiler id t => .compiler id (t.renumber first)
  | .host signature c => .host signature c

def Parts.renumber (first : UInt64) (p : Parts) : Parts :=
  { p with context := p.context.map (Token.renumber first) }

theorem Parts.origin_renumber (first : UInt64) (p : Parts) :
    (p.renumber first).origin = p.origin.map (Origin.renumber first) := by
  obtain ⟨id, context, signature, callback⟩ := p
  cases id <;> cases context <;> cases signature <;> cases callback <;> rfl

namespace World

/-- The world as it would be had the first context been given this serial. -/
def renumber (first : UInt64) (w : World) : World :=
  { w with
    nextSerial := ContextId.serialFrom first ⟨w.contextCount⟩
    routines := w.routines.map (Routine.renumber first)
    history := w.history.map (Event.renumber first) }

def Blind (w : World) : Prop :=
  w.AllBehave Behaviour.Blind

variable (first : UInt64) (w : World)

theorem mint_renumber :
    (w.renumber first).mint = (w.mint.1.renumber first, w.mint.2.renumber first) := by
  simp only [mint, renumber, Context.renumber, ContextId.serialFrom_succ, List.map_append]
  rfl

theorem drop_renumber (c : Context) :
    (w.renumber first).drop (c.renumber first) = (w.drop c).renumber first := by
  simp only [drop, renumber, List.map_append]
  rfl

theorem newCallback_renumber (b : Behaviour) : (w.renumber first).newCallback (b.renumber first) =
    ((w.newCallback b).1, (w.newCallback b).2.renumber first) := by
  simp only [newCallback, wrap, renumber, Array.size_map, Array.map_push]
  rfl

theorem register_renumber (signature : String) (c : Callback) :
    (w.renumber first).register signature c =
      ((w.register signature c).1.renumber first, (w.register signature c).2.renumber first) := by
  simp only [register, renumber, List.map_append]
  rfl

theorem make_renumber (o : Origin) : (w.renumber first).make (o.renumber first) =
    ((w.make o).1.renumber first, (w.make o).2.renumber first) := by
  cases o with
  | compiler id t => rfl
  | host signature c => exact w.register_renumber first signature c

theorem build_renumber (p : Parts) : (w.renumber first).build (p.renumber first) =
    ((w.build p).1.map (Function.renumber first), (w.build p).2.renumber first) := by
  rw [build, build, Parts.origin_renumber]
  cases p.origin with
  | error e => rfl
  | ok o =>
    simp only [Except.map, make_renumber]

theorem remember_renumber (routine : RoutineId) (memory : Nat) :
    (w.renumber first).remember routine memory = (w.remember routine memory).renumber first := by
  have hroutines : (w.routines.map (Routine.renumber first)).modify routine.index ({ · with memory }) =
      (w.routines.modify routine.index ({ · with memory })).map (Routine.renumber first) := by
    apply Array.ext
    · simp only [Array.size_modify, Array.size_map]
    · intro i h h'
      simp only [Array.getElem_modify, Array.getElem_map]
      split <;> rfl
  simp only [remember, renumber, hroutines]

theorem target_renumber (args : List Value) : target (args.map (Value.renumber first)) =
    (target args).map fun p => (p.1.renumber first, p.2.map (Value.renumber first)) := by
  cases args with
  | nil => rfl
  | cons v rest => cases v <;> rfl

variable {w}

theorem Blind.plain (h : w.Blind) {i : Nat} {r : Routine} {c : Computation}
    (hr : w.routines[i]? = some r) (hc : r.behaviour = .plain c) : c.Blind := by
  have hblind : r.behaviour.Blind := h.of_getElem? hr
  rwa [hc] at hblind

mutual
/-- By the measure of the calls themselves. What the first calls leave behind is still blind. -/
theorem call_renumber {w : World} (hw : w.Blind) (f : Function) (args : List Value) :
    (w.renumber first).call (f.renumber first) (args.map (Value.renumber first)) =
      ((w.call f args).1.map (Value.renumber first), (w.call f args).2.renumber first) := by
  cases f with
  | compiler id t =>
    rw [call, Function.renumber, call]
    rfl
  | host r =>
    rw [call, Function.renumber, call, perform_renumber hw]
    obtain ⟨v | text, w'⟩ := w.perform r.callback.routine args <;> rfl
termination_by 3 * args.length + 1

theorem perform_renumber {w : World} (hw : w.Blind) (routine : RoutineId) (args : List Value) :
    (w.renumber first).perform routine (args.map (Value.renumber first)) =
      ((w.perform routine args).1.map (Value.renumber first),
        (w.perform routine args).2.renumber first) := by
  have hget : (w.renumber first).routines[routine.index]? =
      w.routines[routine.index]?.map (Routine.renumber first) := Array.getElem?_map
  cases hr : w.routines[routine.index]? with
  | none =>
    rw [perform, perform, hget, hr]
    rfl
  | some r =>
    rw [hr, Option.map_some] at hget
    -- the renumbered routine behaves in the same way, and what it has captured shows other serials
    have hsame : (r.renumber first).behaviour = r.behaviour.renumber first := rfl
    cases hb : r.behaviour with
    | plain c =>
      rw [hb] at hsame
      rw [perform_plain hr hb, perform_plain hget hsame, hw.plain hr hb, remember_renumber]
      rfl
    | constant v =>
      rw [hb] at hsame
      rw [perform_constant hr hb, perform_constant hget hsame]
      rfl
    | forward =>
      rw [hb] at hsame
      rw [perform_forward hr hb, perform_forward hget hsame, target_renumber]
      cases ht : target args with
      | error text => rfl
      | ok p =>
        obtain ⟨f, rest⟩ := p
        have hlength := length_target ht
        simp only [Except.map, call_renumber hw f rest]
        cases (w.call f rest).1 <;> rfl
    | forwardEach =>
      rw [hb] at hsame
      rw [perform_forwardEach hr hb, perform_forwardEach hget hsame, target_renumber]
      cases ht : target args with
      | error text => rfl
      | ok p =>
        obtain ⟨f, rest⟩ := p
        have hlength := length_target ht
        simp only [Except.map, callEach_renumber hw f rest]
        cases (w.callEach f rest).1 with
        | error e => rfl
        | ok vs => exact congrArg (fun v => (Except.ok v, _)) (Value.renumber_list first vs).symm
termination_by 3 * args.length

theorem callEach_renumber {w : World} (hw : w.Blind) (f : Function) (args : List Value) :
    (w.renumber first).callEach (f.renumber first) (args.map (Value.renumber first)) =
      ((w.callEach f args).1.map (List.map (Value.renumber first)),
        (w.callEach f args).2.renumber first) := by
  cases args with
  | nil =>
    rw [List.map_nil, callEach, callEach]
    rfl
  | cons a rest =>
    have hcall := call_renumber hw f [a]
    have hquiet := hw.quiet (quiet_call w f [a])
    rw [List.map_cons, callEach, callEach, ← List.map_singleton, hcall]
    generalize w.call f [a] = p at hquiet ⊢
    obtain ⟨e | v, w'⟩ := p
    · rfl
    · have heach := callEach_renumber hquiet f rest
      simp only [Except.map, heach]
      obtain ⟨e | vs, w''⟩ := w'.callEach f rest <;> rfl
termination_by 3 * args.length + 2
end

end World
end ScriptValues
