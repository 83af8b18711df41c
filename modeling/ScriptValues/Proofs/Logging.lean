import ScriptValues.Proofs.Ledger

/-! What is logged. The log of a command can be told from the command, its answer and what the session
had stored, and the log of a run is the history of its world. -/

namespace ScriptValues

namespace World

/-- The change from one world to the next logs these entries. -/
def Logs (w w' : World) (log : List LogEntry) : Prop :=
  w'.history.map Event.entry = w.history.map Event.entry ++ log

namespace Logs

variable {w w' w'' : World} {log log' : List LogEntry}

theorem nil (h : w'.history = w.history) : w.Logs w' [] := by
  rw [Logs, h, List.append_nil]

theorem trans (h : w.Logs w' log) (k : w'.Logs w'' log') : w.Logs w'' (log ++ log') := by
  rw [Logs, k, h, List.append_assoc]

theorem unique (h : w.Logs w' log) (k : w.Logs w' log') : log = log' :=
  List.append_cancel_left (h.symm.trans k)

theorem mint (w : World) : w.Logs w.mint.2 [.minted w.mint.1.serial] :=
  List.map_append

theorem drop (w : World) (c : Context) : w.Logs (w.drop c) [.dropped c.serial] :=
  List.map_append

theorem register (w : World) (signature : String) (c : Callback) :
    w.Logs (w.register signature c).2 [.registered signature] :=
  List.map_append

end Logs
end World

namespace Session

/-- What the run has logged. -/
def log (s : Session) (cs : List Command) : List LogEntry :=
  (s.run cs).1.flatMap (·.log)

/-- What is logged when the context under a name goes, if there is one. -/
def departure (s : Session) (name : String) : List LogEntry :=
  ((s.contexts.get? name).map fun c => .dropped c.serial).toList

/-- The signature that the parts under a name carry. -/
def partsSignature (s : Session) (name : String) : String :=
  ((s.parts.get? name).bind (·.signature)).getD ""

/-- What a command logs. A new context replaces the one under its name, and without a name it goes at
once. Whatever is not listed logs nothing, and neither does a command that is not carried out. -/
def logged (s : Session) : Command → Except Fault Answer → List LogEntry
  | .act (.mint (some name)), .ok (.context serial) => .minted serial :: s.departure name
  | .act (.mint none), .ok (.context serial) => [.minted serial, .dropped serial]
  | .act (.dropContext name), .ok _ => s.departure name
  | .act (.host signature _ _), .ok _ => [.registered signature]
  | .act (.register signature _ _), .ok _ => [.registered signature]
  | .act (.build name _), .ok (.function (some f)) =>
    if f.isHost then [.registered (s.partsSignature name)] else []
  | _, _ => []

variable {s s' : Session}

theorem mint_logs (s : Session) (name : Option String) :
    s.world.Logs (s.mint name).2.world (s.logged (.act (.mint name)) (.ok (s.mint name).1)) := by
  have hmint := World.Logs.mint s.world
  cases name with
  | none => exact hmint.trans (.drop _ s.world.mint.1)
  | some name =>
    change s.world.Logs ((s.contexts.get? name).elim s.world.mint.2 s.world.mint.2.drop)
      ([.minted s.world.mint.1.serial] ++ s.departure name)
    unfold departure
    cases s.contexts.get? name with
    | none => exact hmint
    | some old => exact hmint.trans (.drop _ old)

theorem dropContext_logs (s : Session) (name : String) :
    s.world.Logs (s.dropContext name).2.world (s.departure name) := by
  unfold dropContext departure
  cases s.contexts.get? name with
  | none => exact .nil rfl
  | some c => exact .drop s.world c

theorem register_logs {w : World} (hw : s.Ready w) (signature : String) (c : Callback) :
    s.world.Logs (w.register signature c).2 [.registered signature] :=
  (World.Logs.nil hw.history).trans (.register w signature c)

theorem build_logs (s : Session) {parts : String} (name : Option String) {p : Parts}
    (hp : s.parts.get? parts = some p) :
    s.world.Logs (s.build name p).2.world
      (s.logged (.act (.build parts name)) (.ok (s.build name p).1)) := by
  unfold build World.build
  cases ho : p.origin with
  | error e => exact .nil rfl
  | ok o =>
    cases o with
    | compiler id t => exact .nil rfl
    | host signature c =>
      have hsignature : s.partsSignature parts = signature := by
        rw [partsSignature, hp, Option.bind_some, (parts_of_host ho).1, Option.getD_some]
      rw [← hsignature]
      exact .register s.world _ c

theorem act_logs {a : Action} {p : Answer × Session} (h : s.act a = .ok p) :
    s.world.Logs p.2.world (s.logged (.act a) (.ok p.1)) := by
  cases a with
  | mint name =>
    obtain rfl := Except.ok.inj h
    exact s.mint_logs name
  | dropContext name =>
    obtain rfl := Except.ok.inj h
    exact s.dropContext_logs name
  | host signature callback name =>
    obtain ⟨c, hc, rfl⟩ := bind_pure_eq_ok.1 h
    exact register_logs (.wrapped c.1.routine (ready_callback hc)) signature _
  | register signature callback name =>
    obtain ⟨c, hc, rfl⟩ := bind_pure_eq_ok.1 h
    exact register_logs (ready_callback hc) signature c.1
  | build parts name =>
    obtain ⟨q, hq, rfl⟩ := bind_pure_eq_ok.1 h
    exact s.build_logs name (Store.fetch_eq_ok.1 hq)
  | call function args name =>
    obtain ⟨f, hf, h⟩ := bind_eq_ok.1 h
    obtain ⟨vs, hvs, rfl⟩ := bind_pure_eq_ok.1 h
    rw [call_world]
    exact .nil (World.quiet_call s.world f vs).history
  | parts e name =>
    obtain ⟨q, hq, rfl⟩ := bind_pure_eq_ok.1 h
    exact .nil (edit_eq_ok hq).1.history
  | tokenOf function name =>
    obtain ⟨f, hf, rfl⟩ := bind_pure_eq_ok.1 h
    unfold tokenOf
    split <;> exact .nil rfl
  | functionOf e name =>
    obtain ⟨v, hv, rfl⟩ := bind_pure_eq_ok.1 h
    unfold functionOf
    split <;> exact .nil rfl
  | dropToken | dropFunction | dropValue =>
    obtain rfl := Except.ok.inj h
    exact .nil rfl
  -- what is left makes, copies and stores in one step, in a world that stays as it is
  | _ =>
    obtain ⟨x, -, rfl⟩ := bind_pure_eq_ok.1 h
    exact .nil rfl

theorem step_logs (s : Session) (c : Command) :
    s.world.Logs (s.step c).2.world (s.step c).1.log := by
  cases c with
  | ask q => exact .nil rfl
  | act a =>
    obtain ⟨later, hlater⟩ := (s.step_effect (.act a)).moves.history_isPrefix
    simp only [step] at hlater ⊢
    split at hlater
    · exact .nil rfl
    · rw [logSince, ← hlater, List.drop_left, World.Logs, ← hlater, List.map_append]

theorem step_log (s : Session) (c : Command) :
    (s.step c).1.log = s.logged c (s.step c).1.answer := by
  refine (s.step_logs c).unique ?_
  cases c with
  | ask q => exact .nil rfl
  | act a =>
    simp only [step]
    split
    · -- a command that is not carried out logs nothing, whatever it is
      cases a with
      | mint name => cases name <;> exact .nil rfl
      | _ => exact .nil rfl
    · next h => exact act_logs h

theorem run_append (s : Session) (cs ds : List Command) :
    s.run (cs ++ ds) = ((s.run cs).1 ++ ((s.after cs).run ds).1, ((s.after cs).run ds).2) := by
  induction cs generalizing s with
  | nil => rfl
  | cons c cs ih =>
    simp only [List.cons_append, run, ih]
    rfl

theorem length_run (s : Session) (cs : List Command) : (s.run cs).1.length = cs.length := by
  induction cs generalizing s with
  | nil => rfl
  | cons c cs ih => exact congrArg (· + 1) (ih (s.step c).2)

/-- The response at one place of a run. -/
theorem response_eq (s : Session) (before : List Command) (c : Command) (later : List Command) :
    (s.run (before ++ c :: later)).1[before.length]? = some ((s.after before).step c).1 := by
  rw [run_append, ← s.length_run before, List.getElem?_append_right (Nat.le_refl _), Nat.sub_self]
  rfl

theorem log_concat (s : Session) (cs : List Command) (c : Command) :
    s.log (cs ++ [c]) = s.log cs ++ ((s.after cs).step c).1.log := by
  rw [log, run_append, List.flatMap_append, log]
  exact congrArg _ (List.append_nil _)

theorem after_logs (s : Session) (cs : List Command) : s.world.Logs (s.after cs).world (s.log cs) := by
  induction cs using List.reverseRecOn with
  | nil => exact .nil rfl
  | append_singleton cs c ih =>
    rw [log_concat, after_concat]
    exact ih.trans (step_logs _ c)

/-- The log of a run that starts without history is its history. -/
theorem log_start (n : UInt64) (cs : List Command) :
    (start n).log cs = ((start n).after cs).world.history.map Event.entry :=
  ((start n).after_logs cs).symm

end Session
end ScriptValues
