import ScriptValues.Session.Store
import ScriptValues.Value.Table
import ScriptValues.World

/-! A session: a world, and what its commands have stored under names. -/

namespace ScriptValues

structure Session where
  world : World
  contexts : Store Context := .empty
  tokens : Store Token := .empty
  callbacks : Store Callback := .empty
  functions : Store Function := .empty
  values : Store Value := .empty
  parts : Store Parts := .empty
  sets : Store ValueSet := .empty
  maps : Store ValueMap := .empty

inductive StoreKind where
  | context
  | token
  | callback
  | function
  | value
  | parts
  | set
  | map
deriving DecidableEq

/-- Why a command cannot be carried out. -/
inductive Fault where
  | unknown (kind : StoreKind) (name : String)
  | notAList (v : Value)

namespace StoreKind

def label : StoreKind → String
  | context => "context"
  | token => "token"
  | callback => "callback"
  | function => "function"
  | value => "value"
  | parts => "parts"
  | set => "set"
  | map => "map"

end StoreKind

def Fault.message : Fault → String
  | unknown kind name => "unknown " ++ kind.label ++ ": " ++ name
  | notAList v => "not a list: " ++ v.typeName

namespace Session

/-- A session without history, whose first context gets this serial. -/
def start (firstSerial : UInt64) : Session where
  world := { nextSerial := firstSerial }

end Session

def Store.fetch {α : Type} (s : Store α) (kind : StoreKind) (name : String) : Except Fault α :=
  match s.get? name with
  | some a => .ok a
  | none => .error (.unknown kind name)

namespace Session

def context (s : Session) (name : String) : Except Fault Context :=
  s.contexts.fetch .context name

def token (s : Session) (name : String) : Except Fault Token :=
  s.tokens.fetch .token name

def function (s : Session) (name : String) : Except Fault Function :=
  s.functions.fetch .function name

def set (s : Session) (name : String) : Except Fault ValueSet :=
  s.sets.fetch .set name

def map (s : Session) (name : String) : Except Fault ValueMap :=
  s.maps.fetch .map name

def partsNamed (s : Session) (name : String) : Except Fault Parts :=
  s.parts.fetch .parts name

/-- A set that is named for the first time starts empty. -/
def setOrNew (s : Session) (name : String) : ValueSet :=
  (s.sets.get? name).getD .empty

/-- A map that is named for the first time starts empty. -/
def mapOrNew (s : Session) (name : String) : ValueMap :=
  (s.maps.get? name).getD .empty

end Session
end ScriptValues
