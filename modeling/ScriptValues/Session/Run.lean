import ScriptValues.Session.Action

/-! Sessions as runs of commands. -/

namespace ScriptValues

inductive Command where
  | ask (query : Query)
  | act (action : Action)

/-- The answer to one command, and what the world logged meanwhile. -/
structure Response where
  answer : Except Fault Answer
  log : List LogEntry

namespace Session

/-- The events after the first so many, as the log shows them. -/
def logSince (s : Session) (n : Nat) : List LogEntry :=
  (s.world.history.drop n).map Event.entry

/-- A command that cannot be carried out changes nothing. -/
def step (s : Session) : Command → Response × Session
  | .ask q => (⟨s.ask q, []⟩, s)
  | .act a =>
    match s.act a with
    | .error fault => (⟨.error fault, []⟩, s)
    | .ok (answer, s') => (⟨.ok answer, s'.logSince s.world.history.length⟩, s')

def run (s : Session) : List Command → List Response × Session
  | [] => ([], s)
  | c :: cs =>
    let (r, s') := s.step c
    let (rs, s'') := s'.run cs
    (r :: rs, s'')

end Session
end ScriptValues
