import ScriptValues.Session.Basic

/-! Expressions for values and callbacks, over the things a session has stored. -/

namespace ScriptValues

inductive Expr where
  | null
  | boolean (b : Bool)
  | string (text : String)
  | list (items : List Expr)
  | function (name : String)
  | value (name : String)
  /-- A function of a stored context. -/
  | compiler (id : UInt32) (context : String)
  /-- A text so many times over. -/
  | text (n : Nat) (text : String)
  /-- A list of so many copies. -/
  | copies (n : Nat) (e : Expr)
  /-- A value inside so many lists. -/
  | nest (n : Nat) (e : Expr)
  /-- The elements of several lists in one. -/
  | concat (lists : List Expr)

inductive CallbackExpr where
  | plain (computation : Computation)
  | constant (e : Expr)
  | forward
  | forwardEach

inductive CallbackRef where
  | stored (name : String)
  | fresh (e : CallbackExpr)

namespace Session

def elements : Value → Except Fault (List Value)
  | .list vs => .ok vs
  | v => .error (.notAList v)

mutual
def eval (s : Session) : Expr → Except Fault Value
  | .null => .ok .null
  | .boolean b => .ok (.boolean b)
  | .string text => .ok (.string text)
  | .list es => do return .list (← s.evalItems es)
  | .function name => do return .function (← s.function name)
  | .value name => s.values.fetch .value name
  | .compiler id name => do return .function (.compiler id (← s.context name).token)
  | .text n text => .ok (.string (String.join (List.replicate n text)))
  | .copies n e => do return .list (List.replicate n (← s.eval e))
  | .nest n e => do return (← s.eval e).nest n
  | .concat es => do return .list (← s.evalConcat es)

def evalItems (s : Session) : List Expr → Except Fault (List Value)
  | [] => .ok []
  | e :: es => do
    let v ← s.eval e
    let vs ← s.evalItems es
    return v :: vs

def evalConcat (s : Session) : List Expr → Except Fault (List Value)
  | [] => .ok []
  | e :: es => do
    let vs ← elements (← s.eval e)
    let ws ← s.evalConcat es
    return vs ++ ws
end

def behaviour (s : Session) : CallbackExpr → Except Fault Behaviour
  | .plain c => .ok (.plain c)
  | .constant e => do return .constant (← s.eval e)
  | .forward => .ok .forward
  | .forwardEach => .ok .forwardEach

/-- A stored callback as it is, or a new one. -/
def callback (s : Session) : CallbackRef → Except Fault (Callback × World)
  | .stored name => do return (← s.callbacks.fetch .callback name, s.world)
  | .fresh e => do return s.world.newCallback (← s.behaviour e)

end Session
end ScriptValues
