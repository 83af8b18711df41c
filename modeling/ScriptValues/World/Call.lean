import ScriptValues.World

/-! Calling functions. A host function runs the routine of its callback once, with the arguments as
they are; a compiler function is refused. A routine that forwards calls with fewer arguments than it
was given, or with one of several, so calls end. -/

namespace ScriptValues.World

def noArguments : String :=
  "no arguments"

def notAFunction (v : Value) : String :=
  "not a function: " ++ v.typeName

def noRoutine : String :=
  "no routine"

/-- What a forwarding routine calls, and the arguments that are left. -/
def target : List Value → Except String (Function × List Value)
  | [] => .error noArguments
  | .function f :: rest => .ok (f, rest)
  | v :: _ => .error (notAFunction v)

theorem target_eq_ok {args rest : List Value} {f : Function} (h : target args = .ok (f, rest)) :
    args = .function f :: rest := by
  unfold target at h
  split at h
  · cases h
  · cases h
    rfl
  · cases h

theorem length_target {args rest : List Value} {f : Function} (h : target args = .ok (f, rest)) :
    args.length = rest.length + 1 := by
  rw [target_eq_ok h, List.length_cons]

mutual
def call (w : World) (f : Function) (args : List Value) : Except Failure Value × World :=
  match f with
  | .compiler id _ => (.error (.notCallable id), w)
  | .host r =>
    match w.perform r.callback.routine args with
    | (.ok v, w') => (.ok v, w')
    | (.error text, w') => (.error (.callback text), w')
termination_by 3 * args.length + 1

/-- One run of a routine. -/
def perform (w : World) (routine : RoutineId) (args : List Value) : Except String Value × World :=
  match w.routines[routine.index]? with
  | none => (.error noRoutine, w)
  | some r =>
    match r.behaviour with
    | .plain c => ((c.run r.memory args).1, w.remember routine (c.run r.memory args).2)
    | .constant v => (.ok v, w)
    | .forward =>
      match _h : target args with
      | .error text => (.error text, w)
      | .ok (f, rest) =>
        match w.call f rest with
        | (.ok v, w') => (.ok v, w')
        | (.error e, w') => (.error e.message, w')
    | .forwardEach =>
      match _h : target args with
      | .error text => (.error text, w)
      | .ok (f, rest) =>
        match w.callEach f rest with
        | (.ok vs, w') => (.ok (.list vs), w')
        | (.error e, w') => (.error e.message, w')
termination_by 3 * args.length
decreasing_by
  all_goals
    have := length_target _h
    omega

/-- The first failure ends the calls. -/
def callEach (w : World) (f : Function) (args : List Value) : Except Failure (List Value) × World :=
  match args with
  | [] => (.ok [], w)
  | a :: rest =>
    match w.call f [a] with
    | (.error e, w') => (.error e, w')
    | (.ok v, w') =>
      match w'.callEach f rest with
      | (.error e, w'') => (.error e, w'')
      | (.ok vs, w'') => (.ok (v :: vs), w'')
termination_by 3 * args.length + 2
end

end ScriptValues.World
