import ScriptValues.Session.Query
import ScriptValues.World.Call

/-! What a session can do. An action with a name stores what it makes; what was there under the name
goes after the new thing is made, and for a context that shows in the history. -/

namespace ScriptValues

inductive PartsField where
  | id
  | context
  | signature
  | callback
deriving DecidableEq

/-- A change of parts: they are copied, fields are set, and then fields are cleared. -/
structure PartsEdit where
  source : Option String
  id : Option UInt32
  token : Option String
  signature : Option String
  callback : Option CallbackRef
  clear : List PartsField

inductive Action where
  | mint (name : Option String)
  | dropContext (context : String)
  | takeToken (context : String) (name : Option String)
  | copyToken (token : String) (name : Option String)
  | tokenOf (function : String) (name : Option String)
  | dropToken (token : String)
  | compiler (id : UInt32) (token : String) (name : Option String)
  | contextFunction (context : String) (id : UInt32) (name : Option String)
  | newCallback (callback : CallbackExpr) (name : Option String)
  /-- Registers a new callback object wrapped around the given one. -/
  | host (signature : String) (callback : CallbackRef) (name : Option String)
  /-- Registers the given callback object itself. -/
  | register (signature : String) (callback : CallbackRef) (name : Option String)
  | copyFunction (function : String) (name : Option String)
  | dropFunction (function : String)
  | call (function : String) (args : List Expr) (name : Option String)
  | parts (edit : PartsEdit) (name : Option String)
  | build (parts : String) (name : Option String)
  | value (e : Expr) (name : Option String)
  | functionOf (e : Expr) (name : Option String)
  | dropValue (value : String)
  | collect (values : List Expr) (name : Option String)
  | setInsert (set : String) (e : Expr)
  | setContains (set : String) (e : Expr)
  | setRemove (set : String) (e : Expr)
  | mapInsert (map : String) (key : Expr) (payload : String)
  | mapGet (map : String) (key : Expr)
  | mapRemove (map : String) (key : Expr)

def Parts.clear (p : Parts) : PartsField → Parts
  | .id => { p with id := none }
  | .context => { p with context := none }
  | .signature => { p with signature := none }
  | .callback => { p with callback := none }

namespace Session

/-- Stores a new context, or drops it at once. The owner it replaces drops its own after that. -/
def keepContext (s : Session) (name : Option String) (c : Context) : Session :=
  match name with
  | none => { s with world := s.world.drop c }
  | some name =>
    { s with
      world := (s.contexts.get? name).elim s.world s.world.drop
      contexts := s.contexts.insert name c }

def mint (s : Session) (name : Option String) : Answer × Session :=
  let (c, w) := s.world.mint
  (.context c.serial, { s with world := w }.keepContext name c)

def dropContext (s : Session) (name : String) : Answer × Session :=
  match s.contexts.get? name with
  | none => (.dropped false, s)
  | some c => (.dropped true, { s with world := s.world.drop c, contexts := s.contexts.erase name })

def keepToken (s : Session) (name : Option String) (t : Token) : Answer × Session :=
  (.token (some (s.world.reportToken t)), { s with tokens := s.tokens.keep name t })

def keepFunction (s : Session) (name : Option String) (f : Function) : Answer × Session :=
  (.function (some (s.world.reportFunction f)), { s with functions := s.functions.keep name f })

def keepSet (s : Session) (name : String) (t : ValueSet) (result : Bool) : Answer × Session :=
  (.setChanged result t.size, { s with sets := s.sets.insert name t })

def tokenOf (s : Session) (name : Option String) (f : Function) : Answer × Session :=
  match f.context? with
  | none => (.token none, s)
  | some t => s.keepToken name t

def functionOf (s : Session) (name : Option String) (v : Value) : Answer × Session :=
  match v.function? with
  | none => (.function none, s)
  | some f => s.keepFunction name f

/-- What the call changes in the world stays, whether it returns or fails. -/
def call (s : Session) (name : Option String) (f : Function) (args : List Value) : Answer × Session :=
  match s.world.call f args with
  | (.error e, w) => (.failed e, { s with world := w })
  | (.ok v, w) => (.returned v.report, { s with world := w, values := s.values.keep name v })

def build (s : Session) (name : Option String) (p : Parts) : Answer × Session :=
  match s.world.build p with
  | (.error e, w) => (.failed e, { s with world := w })
  | (.ok f, w) => { s with world := w }.keepFunction name f

def orElse {α β : Type} (x : Option α) (get : α → Except Fault β) (y : Option β) :
    Except Fault (Option β) :=
  match x with
  | none => .ok y
  | some a => do return some (← get a)

/-- The parts after the edit, and the world after the callback that the edit may have made. -/
def edit (s : Session) (e : PartsEdit) : Except Fault (Parts × World) := do
  let p : Parts ← e.source.elim (.ok {}) s.partsNamed
  let context ← orElse e.token s.token p.context
  let made ← orElse e.callback s.callback none
  let q : Parts :=
    { id := e.id <|> p.id
      context
      signature := e.signature <|> p.signature
      callback := made.map (·.1) <|> p.callback }
  return (e.clear.foldl Parts.clear q, (made.map (·.2)).getD s.world)

def act (s : Session) : Action → Except Fault (Answer × Session)
  | .mint name => .ok (s.mint name)
  | .dropContext name => .ok (s.dropContext name)
  | .takeToken context name => do return s.keepToken name (← s.context context).token
  | .copyToken token name => do return s.keepToken name (← s.token token)
  | .tokenOf function name => do return s.tokenOf name (← s.function function)
  | .dropToken name =>
    .ok (.dropped (s.tokens.contains name), { s with tokens := s.tokens.erase name })
  | .compiler id token name => do return s.keepFunction name (.compiler id (← s.token token))
  | .contextFunction context id name => do
    return s.keepFunction name (.compiler id (← s.context context).token)
  | .newCallback e name => do
    let (c, w) := s.world.newCallback (← s.behaviour e)
    return (.stored, { s with world := w, callbacks := s.callbacks.keep name c })
  | .host signature callback name => do
    let (c, w) ← s.callback callback
    let (d, w) := w.wrap c.routine
    let (f, w) := w.register signature d
    return { s with world := w }.keepFunction name f
  | .register signature callback name => do
    let (c, w) ← s.callback callback
    let (f, w) := w.register signature c
    return { s with world := w }.keepFunction name f
  | .copyFunction function name => do return s.keepFunction name (← s.function function)
  | .dropFunction name =>
    .ok (.dropped (s.functions.contains name), { s with functions := s.functions.erase name })
  | .call function args name => do
    let f ← s.function function
    let vs ← s.evalItems args
    return s.call name f vs
  | .parts e name => do
    let (p, w) ← s.edit e
    return (.parts p.report, { s with world := w, parts := s.parts.keep name p })
  | .build parts name => do return s.build name (← s.partsNamed parts)
  | .value e name => do
    let v ← s.eval e
    return (.value v.report, { s with values := s.values.keep name v })
  | .functionOf e name => do return s.functionOf name (← s.eval e)
  | .dropValue name =>
    .ok (.dropped (s.values.contains name), { s with values := s.values.erase name })
  | .collect values name => do
    let t : ValueSet := .ofList (← s.evalItems values)
    return (.set t.size t.listing, { s with sets := s.sets.keep name t })
  | .setInsert name e => do
    let t := s.setOrNew name
    let v ← s.eval e
    return s.keepSet name (t.insert v ()) (!t.contains v)
  | .setContains name e => do
    let t := s.setOrNew name
    let v ← s.eval e
    return s.keepSet name t (t.contains v)
  | .setRemove name e => do
    let t := s.setOrNew name
    let v ← s.eval e
    return s.keepSet name (t.erase v) (t.contains v)
  | .mapInsert name key payload => do
    let t := s.mapOrNew name
    let v ← s.eval key
    let t' := t.insert v payload
    return (.mapInserted (t.find? v) t'.size, { s with maps := s.maps.insert name t' })
  | .mapGet name key => do
    let t := s.mapOrNew name
    let v ← s.eval key
    return (.mapFound (t.find? v) t.size, { s with maps := s.maps.insert name t })
  | .mapRemove name key => do
    let t := s.mapOrNew name
    let v ← s.eval key
    let t' := t.erase v
    return (.mapFound (t.find? v) t'.size, { s with maps := s.maps.insert name t' })

end Session
end ScriptValues
