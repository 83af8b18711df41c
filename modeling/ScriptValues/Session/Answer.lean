import ScriptValues.Session.Report

/-! The answers of a session, one shape for each kind of command, and the lines of its log. -/

namespace ScriptValues

inductive Answer where
  | hash (h : HashCode)
  | hashes (hs : List HashCode)
  | failureMade (failure : Failure) (texts : DebugText)
  | failuresCompared (eq ne : Bool)
  | context (serial : UInt64)
  | contextTexts (serial : UInt64) (texts : DebugText)
  | dropped (found : Bool)
  | token (report : Option TokenReport)
  | tokensCompared (eq ne feedEq : Bool)
  | tokensInserted (news : List Bool) (size : Nat)
  | belongs (b : Bool)
  | stored
  | function (report : Option FunctionReport)
  | functionTexts (texts descriptor : DebugText)
  | functionsCompared (comparison : FunctionComparison)
  | returned (report : ValueReport)
  | failed (failure : Failure)
  | parts (report : PartsReport)
  | value (report : ValueReport)
  | valueHash (typeName : String) (hash : HashCode) (displayBytes : Nat)
  | valueTexts (texts : DebugText)
  | feed (value : List HashCode) (function : Option (List HashCode))
  | valuesCompared (eq ne reverse hashEq : Bool)
  | matrix (rows : List (List Bool)) (hashes : List HashCode)
  | set (size : Nat) (lines : List Line)
  | map (size : Nat) (lines : List (Line × String))
  | setChanged (result : Bool) (size : Nat)
  | setOperations (result : SetOperations)
  | mapInserted (old : Option String) (size : Nat)
  | mapFound (found : Option String) (size : Nat)
deriving DecidableEq

/-- What the log shows of an event. -/
inductive LogEntry where
  | minted (serial : UInt64)
  | dropped (serial : UInt64)
  | registered (signature : String)
deriving DecidableEq

def Event.entry : Event → LogEntry
  | minted c => .minted c.serial
  | dropped c => .dropped c.serial
  | registered r => .registered r.signature

end ScriptValues
